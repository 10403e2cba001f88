import CodeCache.Proofs.PassDepth

/-! # Passes come to an end

A link pass enters a module once, and resolves a specifier the first time that it occurs and takes
the same module ever after. The log of a pass says what was entered, asked for and reused, in order.
Parts of a pass have coherent logs that can be put together. -/

namespace CodeCache

inductive Visit where
  | enter (id : ModuleId)
  | ask (specifier : String) (referrer : ModuleId) (answer : Except LoadError ModuleId)
  | reuse (specifier : String) (referrer : ModuleId) (dep : ModuleId)

namespace Visit

def entered? : Visit → Option ModuleId
  | enter id => some id
  | _ => none

def asked? : Visit → Option String
  | ask specifier _ _ => some specifier
  | _ => none

def event? : Visit → Option Event
  | ask specifier referrer _ => some (.resolve specifier referrer)
  | _ => none

end Visit

/-- A log in which only unknown specifiers are asked for and known ones are reused, from what is
known at first to what is known in the end. Nothing follows an error. -/
inductive Coherent : State.Seen → List Visit → Option State.Seen → Prop where
  | nil {seen : State.Seen} : Coherent seen [] (some seen)
  | enter {seen : State.Seen} {id : ModuleId} {log : List Visit} {last : Option State.Seen}
      (rest : Coherent seen log last) : Coherent seen (.enter id :: log) last
  | ask {seen : State.Seen} {specifier : String} {referrer dep : ModuleId} {log : List Visit}
      {last : Option State.Seen} (unseen : Entries.get? seen specifier = none)
      (rest : Coherent (seen.insert specifier dep) log last) :
      Coherent seen (.ask specifier referrer (.ok dep) :: log) last
  | refused {seen : State.Seen} {specifier : String} {referrer : ModuleId} {e : LoadError}
      (unseen : Entries.get? seen specifier = none) :
      Coherent seen [.ask specifier referrer (.error e)] none
  | reuse {seen : State.Seen} {specifier : String} {referrer dep : ModuleId} {log : List Visit}
      {last : Option State.Seen} (known : Entries.get? seen specifier = some dep)
      (rest : Coherent seen log last) : Coherent seen (.reuse specifier referrer dep :: log) last

namespace Coherent

open State (Seen)

variable {seen found : Seen} {log log' : List Visit} {last : Option Seen} {specifier : String}
  {dep : ModuleId}

theorem append (h : Coherent seen log (some found)) (k : Coherent found log' last) :
    Coherent seen (log ++ log') last := by
  generalize same : some found = first at h
  induction h with
  | nil =>
    cases same
    exact k
  | enter _ ih => exact .enter (ih same)
  | ask unseen _ ih => exact .ask unseen (ih same)
  | refused => cases same
  | reuse known _ ih => exact .reuse known (ih same)

theorem known (h : Coherent seen log (some found))
    (before : Entries.get? seen specifier = some dep) :
    Entries.get? found specifier = some dep := by
  generalize same : some found = last at h
  induction h with
  | nil =>
    cases same
    exact before
  | enter _ ih => exact ih before same
  | @ask seen asked _ _ _ _ unseen _ ih =>
    refine ih ?_ same
    have other : asked ≠ specifier := by
      rintro rfl
      cases unseen.symm.trans before
    rw [Entries.get?_insert, if_neg other, before]
  | refused => cases same
  | reuse _ _ ih => exact ih before same

theorem known_or_asked_of_subset (within : log ⊆ log')
    (h : Entries.get? seen specifier = some dep ∨ ∃ first, .ask specifier first (.ok dep) ∈ log) :
    Entries.get? seen specifier = some dep ∨ ∃ first, .ask specifier first (.ok dep) ∈ log' := by
  rcases h with known | ⟨first, member⟩
  · exact .inl known
  · exact .inr ⟨first, within member⟩

theorem source (h : Coherent seen log (some found))
    (after : Entries.get? found specifier = some dep) :
    Entries.get? seen specifier = some dep ∨ ∃ first, .ask specifier first (.ok dep) ∈ log := by
  generalize same : some found = last at h
  induction h with
  | nil =>
    cases same
    exact .inl after
  | enter _ ih => exact known_or_asked_of_subset (List.subset_cons_self _ _) (ih same)
  | @ask seen asked referrer answer _ _ unseen _ ih =>
    rcases ih same with before | ⟨first, member⟩
    · rw [Entries.get?_insert] at before
      by_cases here : asked = specifier
      · rw [if_pos here] at before
        cases before
        exact .inr ⟨referrer, by rw [here]; exact List.mem_cons_self⟩
      · rw [if_neg here] at before
        exact .inl before
    · exact .inr ⟨first, List.mem_cons_of_mem _ member⟩
  | refused => cases same
  | reuse _ _ ih => exact known_or_asked_of_subset (List.subset_cons_self _ _) (ih same)

theorem unseen_of_asked (h : Coherent seen log last)
    (asked : specifier ∈ log.filterMap Visit.asked?) : Entries.get? seen specifier = none := by
  induction h with
  | nil => cases asked
  | enter _ ih => exact ih asked
  | @ask seen other _ dep _ _ unseen _ ih =>
    rcases List.mem_cons.1 asked with rfl | later
    · exact unseen
    · have after := ih later
      rw [Entries.get?_insert] at after
      by_cases here : other = specifier
      · rw [if_pos here] at after
        cases after
      · rwa [if_neg here] at after
  | refused unseen =>
    cases List.mem_singleton.1 asked
    exact unseen
  | reuse _ _ ih => exact ih asked

theorem nodup_asked (h : Coherent seen log last) : (log.filterMap Visit.asked?).Nodup := by
  induction h with
  | nil => exact .nil
  | enter _ ih => exact ih
  | @ask seen specifier _ dep _ _ _ rest ih =>
    refine List.nodup_cons.2 ⟨?_, ih⟩
    intro again
    have unseen := rest.unseen_of_asked again
    rw [Entries.get?_insert, if_pos rfl] at unseen
    cases unseen
  | refused => exact List.nodup_singleton _
  | reuse _ _ ih => exact ih

theorem split {rest : List Visit} (h : Coherent seen (log ++ rest) last) (more : rest ≠ []) :
    ∃ found, Coherent seen log (some found) ∧ Coherent found rest last := by
  induction log generalizing seen with
  | nil => exact ⟨seen, .nil, h⟩
  | cons visit log ih =>
    generalize same : (visit :: log) ++ rest = whole at h
    cases h with
    | nil => cases same
    | enter h =>
      cases same
      obtain ⟨found, first, second⟩ := ih h
      exact ⟨found, .enter first, second⟩
    | ask unseen h =>
      cases same
      obtain ⟨found, first, second⟩ := ih h
      exact ⟨found, .ask unseen first, second⟩
    | refused =>
      have empty : log ++ rest = [] := by
        rw [List.cons_append] at same
        exact (List.cons.inj same).2
      exact absurd (List.append_eq_nil_iff.1 empty).2 more
    | reuse known h =>
      cases same
      obtain ⟨found, first, second⟩ := ih h
      exact ⟨found, .reuse known first, second⟩

theorem reused {before later : List Visit} {referrer : ModuleId}
    (h : Coherent seen (before ++ .reuse specifier referrer dep :: later) last) :
    Entries.get? seen specifier = some dep ∨
      ∃ first, .ask specifier first (.ok dep) ∈ before := by
  obtain ⟨found, first, second⟩ := h.split (by simp)
  cases second with
  | reuse known _ => exact first.source known

end Coherent

namespace State

def visitOnce (answers : Answers) (referrer : ModuleId) (seen : Seen) (specifier : String)
    (s : State) : Visit :=
  match Entries.get? seen specifier with
  | some dep => .reuse specifier referrer dep
  | none =>
    .ask specifier referrer
      (answers { s with events := s.events ++ [.resolve specifier referrer] } specifier referrer)

def visitsEach (answers : Answers) (visits : ModuleId → Seen → State → List Visit)
    (linkDep : ModuleId → Seen → Action Seen) (referrer : ModuleId) :
    List String → Seen → State → List Visit
  | [], _, _ => []
  | specifier :: rest, seen, s =>
    visitOnce answers referrer seen specifier s ::
      match (resolveOnce answers.resolver referrer seen specifier).run s with
      | (.error _, _) => []
      | (.ok dep, t) =>
        visits dep (seen.insert specifier dep) t ++
          match (linkDep dep (seen.insert specifier dep)).run t with
          | (.error _, _) => []
          | (.ok seen, u) => visitsEach answers visits linkDep referrer rest seen u

def visitsWithin (answers : Answers) : (depth : Nat) → ModuleId → Seen → State → List Visit
  | 0, _, _, _ => []
  | depth + 1, id, seen, s =>
    match s.modules[id]? with
    | none => []
    | some r =>
      if r.status = .unlinked then
        .enter id :: visitsEach answers (visitsWithin answers depth)
          (linkWithin answers.resolver depth) id r.body.specifiers seen
          (s.modified id ({ · with status := .linking }))
      else []

def visits (s : State) (answers : Answers) (id : ModuleId) : List Visit :=
  visitsWithin answers (s.modules.length + 2) id [] { s with events := s.events ++ [.link id] }

structure Pass (seen : Seen) (s : State) (log : List Visit) (outcome : Except LoadError Seen)
    (t : State) : Prop where
  events : t.events = s.events ++ log.filterMap Visit.event?
  once : (log.filterMap Visit.entered?).Nodup
  entered : ∀ i ∈ log.filterMap Visit.entered?, i ∈ s.having .unlinked
  left : ∀ found, outcome = .ok found → ∀ i ∈ log.filterMap Visit.entered?, i ∉ t.having .unlinked
  sheds : Sheds .unlinked s t
  coherent : ∃ last, Coherent seen log last ∧ ∀ found, outcome = .ok found → last = some found
  linked : ∀ (i : ModuleId) (r : ModuleRecord), t.modules[i]? = some r → r.status = .linked →
    s.modules[i]? = some r ∨ i ∈ log.filterMap Visit.entered? ∧
      ∀ dep ∈ r.deps, Entries.get? seen dep.1 = some dep.2 ∨
        ∃ first, .ask dep.1 first (.ok dep.2) ∈ log

section

variable {answers : Answers} {seen found : Seen} {s t u : State} {log log' : List Visit}
  {outcome : Except LoadError Seen} {id referrer : ModuleId} {specifier : String}

theorem Pass.coherent_ok (h : Pass seen s log (.ok found) t) : Coherent seen log (some found) := by
  obtain ⟨last, coherent, ends⟩ := h.coherent
  rw [← ends found rfl]
  exact coherent

theorem Pass.idle (s : State) (same : ∀ found, outcome = .ok found → found = seen) :
    Pass seen s [] outcome s := by
  constructor
  · exact (List.append_nil _).symm
  · exact .nil
  · nofun
  · nofun
  · exact Finset.Subset.refl _
  · exact ⟨some seen, .nil, fun found ok => by rw [same found ok]⟩
  · exact fun i r found _ => .inl found

theorem Pass.append (h : Pass seen s log (.ok found) t) (k : Pass found t log' outcome u) :
    Pass seen s (log ++ log') outcome u := by
  have first := h.coherent_ok
  constructor
  · rw [k.events, h.events, List.filterMap_append, List.append_assoc]
  · rw [List.filterMap_append]
    refine h.once.append k.once ?_
    intro i early late
    exact h.left found rfl i early (k.entered i late)
  · intro i member
    rw [List.filterMap_append] at member
    rcases List.mem_append.1 member with early | late
    · exact h.entered i early
    · exact h.sheds (k.entered i late)
  · intro last ok i member
    rw [List.filterMap_append] at member
    rcases List.mem_append.1 member with early | late
    · exact fun still => h.left found rfl i early (k.sheds still)
    · exact k.left last ok i late
  · exact k.sheds.trans h.sheds
  · obtain ⟨last, second, ends⟩ := k.coherent
    exact ⟨last, first.append second, ends⟩
  · intro i r record linked
    have early (dep : String × ModuleId) (known : Entries.get? found dep.1 = some dep.2) :
        Entries.get? seen dep.1 = some dep.2 ∨
          ∃ asker, .ask dep.1 asker (.ok dep.2) ∈ log ++ log' :=
      Coherent.known_or_asked_of_subset (List.subset_append_left log log') (first.source known)
    rw [List.filterMap_append, List.mem_append]
    rcases k.linked i r record linked with between | ⟨entered, deps⟩
    · rcases h.linked i r between linked with before | ⟨entered, deps⟩
      · exact .inl before
      · refine .inr ⟨.inl entered, fun dep member => ?_⟩
        exact Coherent.known_or_asked_of_subset (List.subset_append_left log log') (deps dep member)
    · refine .inr ⟨.inr entered, fun dep member => ?_⟩
      rcases deps dep member with known | ⟨asker, asked⟩
      · exact early dep known
      · exact .inr ⟨asker, List.mem_append_right log asked⟩

/-- A specifier that is found, by asking for it or by looking it up. -/
theorem Pass.import (run : Except LoadError ModuleId)
    (h : (resolveOnce answers.resolver referrer seen specifier).run s = (run, t)) :
    Pass seen s [visitOnce answers referrer seen specifier s] (run.map (seen.insert specifier))
      t := by
  cases known : Entries.get? seen specifier with
  | some dep =>
    rw [resolveOnce, known] at h
    cases h
    have same : seen.insert specifier dep = seen := Entries.insert_of_get? known
    rw [visitOnce, known]
    constructor
    · exact (List.append_nil _).symm
    · exact .nil
    · intro i member
      cases member
    · intro found ok i member
      cases member
    · exact Finset.Subset.refl _
    · refine ⟨some seen, .reuse known .nil, ?_⟩
      intro found ok
      cases ok
      rw [same]
    · exact fun i r found _ => .inl found
  | none =>
    rw [run_resolveOnce_of_unseen known, run_resolver] at h
    obtain ⟨answered, rfl⟩ := Prod.mk.inj h
    rw [visitOnce, known, answered]
    constructor
    · rfl
    · exact .nil
    · intro i member
      cases member
    · intro found ok i member
      cases member
    · exact Finset.Subset.refl _
    · cases run with
      | error e =>
        refine ⟨none, .refused known, ?_⟩
        intro found ok
        cases ok
      | ok dep =>
        refine ⟨_, .ask known .nil, ?_⟩
        intro found ok
        cases ok
        rfl
    · exact fun i r found _ => .inl found

/-- A module is marked, its imports are linked, and its record is completed or restored. -/
theorem Pass.around {r : ModuleRecord} {g : ModuleRecord → ModuleRecord}
    (record : s.modules[id]? = some r) (unlinked : r.status = .unlinked)
    (inner : Pass seen (s.modified id ({ · with status := .linking })) log outcome t)
    (leaves : ∀ found, outcome = .ok found → ∀ r, (g r).status ≠ .unlinked)
    (own : ∀ r, (g r).status = .linked → ∀ dep ∈ (g r).deps,
      Entries.get? seen dep.1 = some dep.2 ∨ ∃ first, .ask dep.1 first (.ok dep.2) ∈ log) :
    Pass seen s (.enter id :: log) outcome (t.modified id g) := by
  have marked : (s.modified id ({ · with status := .linking })).having .unlinked =
      (s.having .unlinked).erase id := having_modified s id (by simp)
  have others {i : ModuleId} (member : i ∈ log.filterMap Visit.entered?) :
      i ≠ id ∧ i ∈ s.having .unlinked := by
    have still := inner.entered i member
    rw [marked] at still
    exact Finset.mem_erase.1 still
  constructor
  · exact inner.events
  · exact List.nodup_cons.2 ⟨fun again => (others again).1 rfl, inner.once⟩
  · intro i member
    rcases List.mem_cons.1 member with rfl | later
    · exact mem_having.2 ⟨r, record, unlinked⟩
    · exact (others later).2
  · intro found ok i member
    rw [having_modified t id (leaves found ok), Finset.mem_erase]
    rintro ⟨other, still⟩
    rcases List.mem_cons.1 member with here | later
    · exact other here
    · exact inner.left found ok i later still
  · exact inner.sheds.around record unlinked (by simp)
  · obtain ⟨last, coherent, ends⟩ := inner.coherent
    exact ⟨last, .enter coherent, ends⟩
  · intro i q here linked
    by_cases mine : i = id
    · subst mine
      cases before : t.modules[i]? with
      | none => simp [modified, before] at here
      | some q' =>
        cases (getElem?_modified before g).symm.trans here
        refine .inr ⟨List.mem_cons_self, fun dep member => ?_⟩
        exact Coherent.known_or_asked_of_subset (List.subset_cons_self _ _)
          (own q' linked dep member)
    · rw [(onlyAt_modified t id g).other i mine] at here
      rcases inner.linked i q here linked with before | ⟨entered, deps⟩
      · exact .inl (((onlyAt_modified s id _).other i mine).symm.trans before)
      · refine .inr ⟨List.mem_cons_of_mem _ entered, fun dep member => ?_⟩
        exact Coherent.known_or_asked_of_subset (List.subset_cons_self _ _) (deps dep member)

end

section

variable (answers : Answers) {visits : ModuleId → Seen → State → List Visit}
  {linkDep : ModuleId → Seen → Action Seen}
  (one : ∀ id seen s, Pass seen s (visits id seen s) ((linkDep id seen).run s).1
    ((linkDep id seen).run s).2)

include one

theorem linkImports_pass (referrer : ModuleId) (specifiers : List String) (seen : Seen)
    (s : State) :
    Pass seen s (visitsEach answers visits linkDep referrer specifiers seen s)
      (((linkImports answers.resolver linkDep referrer specifiers seen).run s).1.map (·.1))
      ((linkImports answers.resolver linkDep referrer specifiers seen).run s).2 := by
  induction specifiers generalizing seen s with
  | nil =>
    refine .idle s fun found ok => ?_
    cases ok
    rfl
  | cons specifier rest ih =>
    rw [visitsEach, linkImports, Action.run_bind]
    cases found : (resolveOnce answers.resolver referrer seen specifier).run s with
    | mk outcome t =>
      have first := Pass.import outcome found
      cases outcome with
      | error e => exact first
      | ok dep =>
        have second := one dep (seen.insert specifier dep) t
        simp only [Action.run_bind]
        cases linked : (linkDep dep (seen.insert specifier dep)).run t with
        | mk outcome u =>
          rw [linked] at second
          cases outcome with
          | error e =>
            rw [List.append_nil]
            exact first.append second
          | ok seen' =>
            have third := ih seen' u
            refine first.append (second.append ?_)
            dsimp only
            cases others : (linkImports answers.resolver linkDep referrer rest seen').run u with
            | mk outcome v =>
              rw [others] at third
              cases outcome with
              | error e => exact third
              | ok found => exact third

theorem deps_of_linkImports {referrer : ModuleId} {specifiers : List String} {seen found : Seen}
    {s t : State} {deps : List (String × ModuleId)}
    (run : (linkImports answers.resolver linkDep referrer specifiers seen).run s =
      (.ok (found, deps), t)) :
    ∀ dep ∈ deps, Entries.get? found dep.1 = some dep.2 := by
  induction specifiers generalizing seen s deps with
  | nil =>
    cases run
    nofun
  | cons specifier rest ih =>
    obtain ⟨dep, u, between, v, others, _, linked, later, rfl⟩ := linkImports_cons_ok.1 run
    have second := one dep (seen.insert specifier dep) u
    rw [linked] at second
    have third := linkImports_pass answers one referrer rest between v
    rw [later] at third
    intro bound member
    rcases List.mem_cons.1 member with rfl | other
    · refine third.coherent_ok.known (second.coherent_ok.known ?_)
      rw [Entries.get?_insert, if_pos rfl]
    · exact ih later bound other

end

theorem linkWithin_pass (answers : Answers) (depth : Nat) (id : ModuleId) (seen : Seen)
    (s : State) :
    Pass seen s (visitsWithin answers depth id seen s)
      ((linkWithin answers.resolver depth id seen).run s).1
      ((linkWithin answers.resolver depth id seen).run s).2 := by
  induction depth generalizing id seen s with
  | zero => exact .idle s nofun
  | succ depth ih =>
    have imports (r : ModuleRecord) := linkImports_pass answers ih id r.body.specifiers seen
      (s.modified id ({ · with status := .linking }))
    cases run : (linkWithin answers.resolver (depth + 1) id seen).run s with
    | mk outcome u =>
      cases linkWithin_result run with
      | missing missing =>
        simp only [visitsWithin, missing]
        exact .idle s nofun
      | done found unlinked =>
        simp only [visitsWithin, found, if_neg unlinked]
        refine .idle s fun found ok => ?_
        cases ok
        rfl
      | @refused r message found status =>
        have unlinked : r.status ≠ .unlinked := by simp [status]
        simp only [visitsWithin, found, if_neg unlinked]
        exact .idle s nofun
      | @linked r seen' deps t found status pass =>
        have inner := imports r
        rw [pass] at inner
        simp only [visitsWithin, found, if_pos status]
        refine inner.around found status (by simp) ?_
        intro r _ dep member
        exact inner.coherent_ok.source (deps_of_linkImports answers ih pass dep member)
      | @failed r e t found status pass =>
        have inner := imports r
        rw [pass] at inner
        simp only [visitsWithin, found, if_pos status]
        exact inner.around found status nofun (by simp)

theorem state_link (resolve : Resolver) (id : ModuleId) (s : State) :
    ((link resolve id).run s).2 =
      ((linkWithin resolve (s.modules.length + 2) id []).run
        { s with events := s.events ++ [.link id] }).2 := by
  rw [run_link, Action.run_bind]
  rcases (linkWithin resolve (s.modules.length + 2) id []).run _ with ⟨_ | _, t⟩
  · rfl
  · rfl

/-- A log in which no module is entered twice, no specifier asked for twice, and what is reused is
the answer to an earlier question. -/
structure VisitedOnce (log : List Visit) : Prop where
  entered : (log.filterMap Visit.entered?).Nodup
  asked : (log.filterMap Visit.asked?).Nodup
  reused : ∀ before specifier referrer dep later,
    log = before ++ .reuse specifier referrer dep :: later →
      ∃ first, .ask specifier first (.ok dep) ∈ before

/-- A link pass enters only unlinked modules. It records what it asks for, and a module that it
links was entered and is bound to the answers. -/
theorem link_visits (s : State) (answers : Answers) (id : ModuleId) :
    let log := s.visits answers id
    let t := ((link answers.resolver id).run s).2
    VisitedOnce log ∧ (∀ i ∈ log.filterMap Visit.entered?, i ∈ s.having .unlinked) ∧
      t.events = s.events ++ .link id :: log.filterMap Visit.event? ∧
      ∀ (i : ModuleId) (r : ModuleRecord), t.modules[i]? = some r → r.status = .linked →
        s.modules[i]? = some r ∨ i ∈ log.filterMap Visit.entered? ∧
          ∀ dep ∈ r.deps, ∃ first, .ask dep.1 first (.ok dep.2) ∈ log := by
  intro log t
  have pass := linkWithin_pass answers (s.modules.length + 2) id []
    { s with events := s.events ++ [.link id] }
  rw [← state_link] at pass
  obtain ⟨last, coherent, _⟩ := pass.coherent
  refine ⟨⟨pass.once, coherent.nodup_asked, ?_⟩, pass.entered, ?_, ?_⟩
  · intro before specifier referrer dep later cut
    have whole : Coherent [] log last := coherent
    rw [cut] at whole
    rcases whole.reused with known | answered
    · cases known
    · exact answered
  · exact pass.events.trans (List.append_assoc _ _ _)
  · intro i r found linked
    rcases pass.linked i r found linked with before | ⟨entered, deps⟩
    · exact .inl before
    · refine .inr ⟨entered, fun dep member => ?_⟩
      rcases deps dep member with known | answered
      · cases known
      · exact answered

/-- However the imports lie, and whatever answers them, a link pass and an evaluation come to an end
before they have gone deeper than there are modules to link or to evaluate: what would be done
further down never matters. A link pass enters a module once at most and asks for a specifier once
at most, and the modules it links are bound to the answers. An evaluation runs a body once at most,
and the modules it evaluates have run theirs. -/
theorem passes_end (s : State) (answers : Answers) (id : ModuleId) :
    (∀ stop depth, (s.having .unlinked).card < depth →
        (linkDownTo answers.resolver stop depth id).run s = (link answers.resolver id).run s) ∧
      (let log := s.visits answers id
        let t := ((link answers.resolver id).run s).2
        VisitedOnce log ∧ (∀ i ∈ log.filterMap Visit.entered?, i ∈ s.having .unlinked) ∧
          t.events = s.events ++ .link id :: log.filterMap Visit.event? ∧
          ∀ (i : ModuleId) (r : ModuleRecord), t.modules[i]? = some r → r.status = .linked →
            s.modules[i]? = some r ∨ i ∈ log.filterMap Visit.entered? ∧
              ∀ dep ∈ r.deps, ∃ first, .ask dep.1 first (.ok dep.2) ∈ log) ∧
      (∀ stop depth, (s.having .linked).card < depth →
        (evaluateDownTo stop depth id).run s = (evaluate id).run s) ∧
      (let log := s.startsOf (.evaluate id)
        let t := ((evaluate id).run s).2
        (log.map (·.id)).Nodup ∧ (∀ start ∈ log, start.id ∈ s.having .linked) ∧
          ∀ (i : ModuleId) (r : ModuleRecord), t.modules[i]? = some r → r.status = .evaluated →
            s.modules[i]? = some r ∨ i ∈ log.map (·.id)) := by
  refine ⟨fun stop depth few => run_linkDownTo answers stop few id, link_visits s answers id,
    fun stop depth few => run_evaluateDownTo stop few id, ?_⟩
  intro log t
  have started : Started log s t := next_started s (.evaluate id)
  refine ⟨started.once, fun start member => ?_, started.all⟩
  obtain ⟨r, found, linked, _⟩ := started.before start member
  exact mem_having.2 ⟨r, found, linked⟩

def tangle : State where
  modules := [importing ["b", "c"], importing ["c", "a"], importing ["c"]]
where
  importing (specifiers : List String) : ModuleRecord :=
    { body := .source { imports := specifiers.map fun specifier => { specifier, bindings := [] } }
      context := none }

def tangleAnswers : Answers := .ofTable [("a", 0), ("b", 1), ("c", 2)]

theorem passes_end_tangle :
    let linked := ((link tangleAnswers.resolver 0).run tangle).2
    (∀ stop, (linkDownTo tangleAnswers.resolver stop 4 0).run tangle =
        (link tangleAnswers.resolver 0).run tangle) ∧
      VisitedOnce [.enter 0, .ask "b" 0 (.ok 1), .enter 1, .ask "c" 1 (.ok 2), .enter 2,
        .reuse "c" 2 2, .ask "a" 1 (.ok 0), .reuse "c" 0 2] ∧
      linked.events = [.link 0, .resolve "b" 0, .resolve "c" 1, .resolve "a" 1] ∧
      (∀ stop, (evaluateDownTo stop 4 0).run linked = (evaluate 0).run linked) ∧
      (linked.startsOf (.evaluate 0)).map (·.id) = [2] := by
  intro linked
  obtain ⟨ends, ⟨once, _, events, _⟩, _⟩ := passes_end tangle tangleAnswers 0
  obtain ⟨_, _, evaluates, _⟩ := passes_end linked tangleAnswers 0
  exact ⟨fun stop => ends stop 4 (by decide), once, events,
    fun stop => evaluates stop 4 (by decide), rfl⟩

end State

end CodeCache
