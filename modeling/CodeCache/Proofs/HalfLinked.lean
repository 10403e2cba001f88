import CodeCache.Proofs.Closure
import CodeCache.Proofs.Failures

/-! # What linked modules depend on

A link pass that fails unlinks the modules that it is at work on, and leaves the ones linked that it
is done with. Where imports form a cycle, one of those can depend on one of the others, and it then
counts as linked but cannot be evaluated. Apart from that, whatever a module depends on has been
linked: as long as passes succeed, or follow answers that rank the modules. -/

namespace CodeCache

open Relation (ReflTransGen)
open ModuleRecord (LinkMove EvalMove)

/-- The module has been linked, or is just being linked where that is good enough. -/
def Status.Stands (strict : Prop) (status : Status) : Prop :=
  status ≠ .unlinked ∧ (strict → status ≠ .linking)

theorem Status.linked_stands (strict : Prop) : Status.linked.Stands strict := by
  simp [Status.Stands]

theorem Status.evaluating_stands (strict : Prop) : Status.evaluating.Stands strict := by
  simp [Status.Stands]

theorem Status.Ended.stands {status : Status} (ended : status.Ended) (strict : Prop) :
    status.Stands strict := by
  rcases ended with rfl | ⟨_, rfl⟩ <;> simp [Status.Stands]

namespace State

variable {s t u s₀ : State} {id i j : ModuleId} {r : ModuleRecord} {strict : Prop}

def Stands (strict : Prop) (s : State) (id : ModuleId) : Prop :=
  ∃ r : ModuleRecord, s.modules[id]? = some r ∧ r.status.Stands strict

def Settled (strict : Prop) (s : State) : Prop :=
  ∀ (i : ModuleId) (r : ModuleRecord), s.modules[i]? = some r → ∀ dep ∈ r.deps,
    s.Stands strict dep.2

def Imports (s : State) (id : ModuleId) (specifier : String) : Prop :=
  ∃ r : ModuleRecord, s.modules[id]? = some r ∧ specifier ∈ r.body.specifiers

theorem Stands.follows {R : ModuleRecord → ModuleRecord → Prop} (h : s.Stands strict id)
    (follows : Follows R s t)
    (keeps : ∀ r r', R r r' → r.status.Stands strict → r'.status.Stands strict) :
    t.Stands strict id := by
  obtain ⟨r, found, stands⟩ := h
  obtain ⟨r', found', move⟩ := follows.old id r found
  exact ⟨r', found', keeps r r' move stands⟩

theorem Stands.linkMove {r r' : ModuleRecord} (move : LinkMove r r')
    (h : r.status.Stands strict) : r'.status.Stands strict := by
  cases move with
  | same => exact h
  | linked => exact Status.linked_stands strict

theorem Stands.evalMove {r r' : ModuleRecord} (move : EvalMove r r')
    (h : r.status.Stands strict) : r'.status.Stands strict := by
  cases move with
  | same => exact h
  | evaluated => exact Status.Ended.stands (.inl rfl) strict
  | errored => exact Status.Ended.stands (.inr ⟨_, rfl⟩) strict

theorem Stands.modified (h : s.Stands strict j) {f : ModuleRecord → ModuleRecord}
    (found : s.modules[id]? = some r) (stands : s.Stands strict id → (f r).status.Stands strict) :
    (s.modified id f).Stands strict j := by
  by_cases here : j = id
  · subst here
    exact ⟨f r, getElem?_modified found f, stands h⟩
  · obtain ⟨q, foundAt, hq⟩ := h
    exact ⟨q, ((onlyAt_modified s id f).other j here).trans foundAt, hq⟩

theorem Settled.modified (h : s.Settled strict) {f : ModuleRecord → ModuleRecord}
    (found : s.modules[id]? = some r) (deps : ∀ dep ∈ (f r).deps, s.Stands strict dep.2)
    (stands : s.Stands strict id → (f r).status.Stands strict) :
    (s.modified id f).Settled strict := by
  intro i q foundAt dep member
  by_cases here : i = id
  · subst here
    cases (getElem?_modified found f).symm.trans foundAt
    exact (deps dep member).modified found stands
  · rw [(onlyAt_modified s id f).other i here] at foundAt
    exact (h i q foundAt dep member).modified found stands

end State

/-- Whatever a specifier is answered with ranks below the modules that import it. -/
def Answers.Ranks (answers : Answers) (s : State) (rank : ModuleId → Nat) : Prop :=
  ∀ (u : State) (specifier : String) (referrer dep : ModuleId),
    answers u specifier referrer = .ok dep →
      ∀ id, s.Imports id specifier → rank dep < rank id

namespace State

variable {s t u s₀ : State} {id i j : ModuleId} {r : ModuleRecord} {strict : Prop}

structure Underway (strict : Prop) (s₀ s : State) : Prop where
  settled : s.Settled strict
  bodies : ∀ (i : ModuleId) (r : ModuleRecord), s.modules[i]? = some r →
    ∃ r₀ : ModuleRecord, s₀.modules[i]? = some r₀ ∧ r.body = r₀.body

theorem Underway.of_modules (h : Underway strict s₀ s) (same : t.modules = s.modules) :
    Underway strict s₀ t := by
  constructor
  · intro i r found dep member
    rw [same] at found
    obtain ⟨q, foundAt, stands⟩ := h.settled i r found dep member
    exact ⟨q, by rw [same, foundAt], stands⟩
  · intro i r found
    rw [same] at found
    exact h.bodies i r found

theorem Underway.modified (h : Underway strict s₀ s) {f : ModuleRecord → ModuleRecord}
    (found : s.modules[id]? = some r) (body : (f r).body = r.body)
    (deps : ∀ dep ∈ (f r).deps, s.Stands strict dep.2)
    (stands : s.Stands strict id → (f r).status.Stands strict) :
    Underway strict s₀ (s.modified id f) := by
  refine ⟨h.settled.modified found deps stands, ?_⟩
  intro i q foundAt
  by_cases here : i = id
  · subst here
    cases (getElem?_modified found f).symm.trans foundAt
    rw [body]
    exact h.bodies i r found
  · exact h.bodies i q (((onlyAt_modified s id f).other i here).symm.trans foundAt)

section

variable {answers : Answers} {rank : ModuleId → Nat} {seen : Seen} {specifier : String}
  {specifiers : List String} {referrer : ModuleId} {depth : Nat}

/-- What was found in a pass ranks below what imports it. -/
def Below (strict : Prop) (s₀ : State) (rank : ModuleId → Nat) (seen : Seen) : Prop :=
  strict → ∀ specifier dep, Entries.get? seen specifier = some dep →
    ∀ id, s₀.Imports id specifier → rank dep < rank id

theorem Below.insert {dep : ModuleId} (h : Below strict s₀ rank seen)
    (ranks : strict → ∀ id, s₀.Imports id specifier → rank dep < rank id) :
    Below strict s₀ rank (seen.insert specifier dep) := by
  intro yes other found known
  rw [Entries.get?_insert] at known
  split at known
  · rename_i same
    cases known
    subst same
    exact ranks yes
  · exact h yes other found known

theorem run_resolveOnce {outcome : Except LoadError ModuleId}
    (run : (resolveOnce answers.resolver referrer seen specifier).run s = (outcome, t)) :
    t.modules = s.modules ∧ ∀ dep, outcome = .ok dep →
      Entries.get? seen specifier = some dep ∨ ∃ u, answers u specifier referrer = .ok dep := by
  cases known : Entries.get? seen specifier with
  | some dep =>
    rw [resolveOnce, known] at run
    cases run
    exact ⟨rfl, fun dep same => .inl (by cases same; rfl)⟩
  | none =>
    rw [run_resolveOnce_of_unseen known, run_resolver] at run
    obtain ⟨answered, rfl⟩ := Prod.mk.inj run
    exact ⟨rfl, fun dep same => .inr ⟨_, answered.trans same⟩⟩

structure Stage (strict : Prop) (s₀ : State) (rank : ModuleId → Nat) (limit : Nat) (seen : Seen)
    (s : State) : Prop where
  underway : Underway strict s₀ s
  below : Below strict s₀ rank seen
  above : strict → ∀ (i : ModuleId) (r : ModuleRecord), s.modules[i]? = some r →
    r.status = .linking → limit ≤ rank i

theorem Stage.resolved (stage : Stage strict s₀ rank (rank referrer) seen s)
    (ranks : strict → answers.Ranks s₀ rank) (imported : s₀.Imports referrer specifier)
    {dep : ModuleId}
    (run : (resolveOnce answers.resolver referrer seen specifier).run s = (.ok dep, u)) :
    Stage strict s₀ rank (rank dep + 1) (seen.insert specifier dep) u := by
  obtain ⟨same, source⟩ := run_resolveOnce run
  have lower (yes : strict) (id : ModuleId) (imported : s₀.Imports id specifier) :
      rank dep < rank id := by
    rcases source dep rfl with known | ⟨v, answered⟩
    · exact stage.below yes specifier dep known id imported
    · exact ranks yes v specifier referrer dep answered id imported
  refine ⟨stage.underway.of_modules same, stage.below.insert lower, ?_⟩
  intro yes i r found linking
  rw [same] at found
  exact Nat.lt_of_lt_of_le (lower yes referrer imported) (stage.above yes i r found linking)

/-- Linking a module leaves nothing more in the making. -/
theorem Stage.onward {limit : Nat} {seen' : Seen} (stage : Stage strict s₀ rank limit seen s)
    (same : u.modules = s.modules) (move : Follows LinkMove u t) (underway : Underway strict s₀ t)
    (below : Below strict s₀ rank seen') : Stage strict s₀ rank limit seen' t := by
  refine ⟨underway, below, ?_⟩
  intro yes i r found linking
  have before := move.of_unmoved found (by simp [linking]) (by simp [linking])
  rw [same] at before
  exact stage.above yes i r before linking

/-- Nothing depends on a module that is not linked, so that it may be marked. -/
theorem Stage.marked (stage : Stage strict s₀ rank (rank id + 1) seen s)
    (found : s.modules[id]? = some r) (unlinked : r.status = .unlinked) :
    Stage strict s₀ rank (rank id) seen (s.modified id ({ · with status := .linking })) := by
  refine ⟨stage.underway.modified found rfl (stage.underway.settled id r found) ?_, stage.below, ?_⟩
  · rintro ⟨q, foundAt, stands⟩
    cases found.symm.trans foundAt
    exact absurd unlinked stands.1
  · intro yes i q foundAt linking
    by_cases here : i = id
    · rw [here]
    · rw [(onlyAt_modified s id _).other i here] at foundAt
      exact Nat.le_of_succ_le (stage.above yes i q foundAt linking)

theorem linkImports_settles (ranks : strict → answers.Ranks s₀ rank)
    (linkDep : ∀ {id : ModuleId} {seen : Seen} {s t : State} {outcome : Except LoadError Seen},
      (linkWithin answers.resolver depth id seen).run s = (outcome, t) →
      Stage strict s₀ rank (rank id + 1) seen s → (strict ∨ ∃ seen', outcome = .ok seen') →
      Underway strict s₀ t ∧ ∀ seen', outcome = .ok seen' →
        Below strict s₀ rank seen' ∧ t.Stands strict id)
    {outcome : Except LoadError (Seen × List (String × ModuleId))}
    (run : (linkImports answers.resolver (linkWithin answers.resolver depth) referrer specifiers
      seen).run s = (outcome, t))
    (stage : Stage strict s₀ rank (rank referrer) seen s)
    (imports : ∀ specifier ∈ specifiers, s₀.Imports referrer specifier)
    (good : strict ∨ ∃ found, outcome = .ok found) :
    Underway strict s₀ t ∧ ∀ found, outcome = .ok found →
      Below strict s₀ rank found.1 ∧ ∀ dep ∈ found.2, t.Stands strict dep.2 := by
  have course := ModuleRecord.linkMove_course
  have follows (id : ModuleId) (seen : Seen) :
      (linkWithin answers.resolver depth id seen).Along (Follows LinkMove) :=
    linkWithin_follows course (fun _ _ h => h) (resolver_follows course answers) depth id seen
  -- What is linked on the way ranks below everything that the pass is at work on, so that it does
  -- not depend on any of that; without ranks, no step fails.
  induction specifiers generalizing seen s outcome with
  | nil =>
    cases run
    refine ⟨stage.underway, ?_⟩
    intro found same
    cases same
    exact ⟨stage.below, by simp⟩
  | cons specifier rest ih =>
    have first := imports specifier List.mem_cons_self
    have later : ∀ specifier ∈ rest, s₀.Imports referrer specifier :=
      fun other member => imports other (List.mem_cons_of_mem _ member)
    -- The first import, resolved and linked, and where the others go on.
    have linked {dep : ModuleId} {u v : State} {seen₁ : Seen}
        (resolved : (resolveOnce answers.resolver referrer seen specifier).run s = (.ok dep, u))
        (made : (linkWithin answers.resolver depth dep (seen.insert specifier dep)).run u =
          (.ok seen₁, v)) :
        Stage strict s₀ rank (rank referrer) seen₁ v ∧ v.Stands strict dep := by
      obtain ⟨hv, done⟩ := linkDep made (stage.resolved ranks first resolved) (.inr ⟨_, rfl⟩)
      obtain ⟨hseen, stands⟩ := done seen₁ rfl
      have move := follows dep (seen.insert specifier dep) u
      rw [made] at move
      exact ⟨stage.onward (run_resolveOnce resolved).1 move hv hseen, stands⟩
    cases outcome with
    | ok found =>
      obtain ⟨seen', deps⟩ := found
      obtain ⟨dep, u, seen₁, v, deps', resolved, made, others, rfl⟩ := linkImports_cons_ok.1 run
      obtain ⟨next, stands⟩ := linked resolved made
      obtain ⟨ht, ends⟩ := ih others next later (.inr ⟨_, rfl⟩)
      obtain ⟨hseen, all⟩ := ends _ rfl
      refine ⟨ht, ?_⟩
      intro found same
      cases same
      refine ⟨hseen, ?_⟩
      intro d member
      rcases List.mem_cons.1 member with rfl | member
      · have move := (follows_sequential course).linkImports (resolver_follows course answers)
          follows referrer rest seen₁ v
        rw [others] at move
        exact stands.follows move fun _ _ => Stands.linkMove
      · exact all d member
    | error e =>
      have yes : strict := by
        rcases good with yes | ⟨_, ok⟩
        · exact yes
        · cases ok
      refine ⟨?_, by simp⟩
      rcases linkImports_cons_error.1 run with failed | ⟨dep, u, resolved, failed | failed⟩
      · exact stage.underway.of_modules (run_resolveOnce failed).1
      · exact (linkDep failed (stage.resolved ranks first resolved) (.inl yes)).1
      · obtain ⟨seen₁, v, made, others⟩ := failed
        exact (ih others (linked resolved made).1 later (.inl yes)).1

theorem linkWithin_settles (ranks : strict → answers.Ranks s₀ rank)
    {outcome : Except LoadError Seen}
    (run : (linkWithin answers.resolver depth id seen).run s = (outcome, t))
    (stage : Stage strict s₀ rank (rank id + 1) seen s)
    (good : strict ∨ ∃ seen', outcome = .ok seen') :
    Underway strict s₀ t ∧ ∀ seen', outcome = .ok seen' →
      Below strict s₀ rank seen' ∧ t.Stands strict id := by
  have underway := stage.underway
  induction depth generalizing id seen s t outcome with
  | zero =>
    cases run
    exact ⟨underway, by simp⟩
  | succ depth ih =>
    have course := ModuleRecord.linkMove_course
    have inner {r : ModuleRecord} {v : State}
        {outcome : Except LoadError (Seen × List (String × ModuleId))}
        (found : s.modules[id]? = some r) (unlinked : r.status = .unlinked)
        (imports : (linkImports answers.resolver (linkWithin answers.resolver depth) id
          r.body.specifiers seen).run (s.modified id ({ · with status := .linking })) =
            (outcome, v))
        (good : strict ∨ ∃ found, outcome = .ok found) :
        v.modules[id]? = some { r with status := .linking } ∧ Underway strict s₀ v ∧
          ∀ found, outcome = .ok found →
            Below strict s₀ rank found.1 ∧ ∀ dep ∈ found.2, v.Stands strict dep.2 := by
      have named (specifier : String) (member : specifier ∈ r.body.specifiers) :
          s₀.Imports id specifier := by
        obtain ⟨r₀, found₀, body⟩ := underway.bodies id r found
        exact ⟨r₀, found₀, by rwa [← body]⟩
      have move := (follows_sequential course).linkImports (resolver_follows course answers)
        (linkWithin_follows course (fun _ _ h => h) (resolver_follows course answers) depth) id
        r.body.specifiers seen (s.modified id ({ · with status := .linking }))
      rw [imports] at move
      refine ⟨move.busy course (getElem?_modified found _) (by simp [Status.Rests]), ?_⟩
      exact linkImports_settles ranks (fun run stage good => ih run stage good stage.underway)
        imports (stage.marked found unlinked) named good
    cases linkWithin_result run with
    | missing | refused => exact ⟨underway, by simp⟩
    | @done r found status =>
      refine ⟨underway, ?_⟩
      intro seen' same
      cases same
      refine ⟨stage.below, r, found, status, ?_⟩
      intro yes linking
      exact Nat.lt_irrefl _ (stage.above yes id r found linking)
    | @linked r seen' deps v found status imports =>
      obtain ⟨own, hv, done⟩ := inner found status imports (.inr ⟨_, rfl⟩)
      obtain ⟨hseen, stand⟩ := done _ rfl
      refine ⟨hv.modified own rfl stand fun _ => Status.linked_stands strict, ?_⟩
      intro found' same
      cases same
      exact ⟨hseen, _, getElem?_modified own _, Status.linked_stands strict⟩
    | @failed r e v found status imports =>
      have yes : strict := by
        rcases good with yes | ⟨_, ok⟩
        · exact yes
        · cases ok
      obtain ⟨own, hv, _⟩ := inner found status imports (.inl yes)
      have deps := hv.settled id _ own
      refine ⟨hv.modified own rfl deps ?_, by simp⟩
      rintro ⟨q, foundAt, stands⟩
      cases own.symm.trans foundAt
      exact absurd rfl (stands.2 yes)

theorem Settled.weaken (h : s.Settled True) (strict : Prop) : s.Settled strict := by
  intro i r found dep member
  obtain ⟨q, foundAt, stands⟩ := h i r found dep member
  exact ⟨q, foundAt, stands.1, fun _ => stands.2 trivial⟩

theorem Stands.atRest (h : s.Stands strict id) (rest : s.AtRest) : s.Stands True id := by
  obtain ⟨r, found, stands⟩ := h
  exact ⟨r, found, stands.1, fun _ => (rest id r found).1⟩

/-- A link pass that succeeds, or whose answers rank the modules, links whatever is depended on. -/
theorem link_settles (order : s.InOrder) (settled : s.Settled True)
    {outcome : Except LoadError Unit} (run : (link answers.resolver id).run s = (outcome, t))
    (safe : outcome = .ok () ∨ ∃ rank, answers.Ranks s rank) :
    t.Settled True ∧ (outcome = .ok () → t.Stands True id) := by
  have course := ModuleRecord.moves_course
  have rest : s.AtRest := fun i r found => (order i r found).rests
  have moves := link_follows course (fun _ _ h => .single (.inl h))
    (resolver_follows course answers) id s
  rw [run] at moves
  have restAfter := moves.atRest rest
  -- The pass may be taken to fail only where there are ranks.
  obtain ⟨rank, ranks, good⟩ : ∃ rank, ((∃ rank, answers.Ranks s rank) → answers.Ranks s rank) ∧
      ((∃ rank, answers.Ranks s rank) ∨ outcome = .ok ()) := by
    by_cases ranked : ∃ rank, answers.Ranks s rank
    · obtain ⟨rank, h⟩ := ranked
      exact ⟨rank, fun _ => h, .inl ⟨rank, h⟩⟩
    · exact ⟨fun _ => 0, fun h => absurd h ranked, .inr (safe.resolve_right ranked)⟩
  have whole : Underway (∃ rank, answers.Ranks s rank) s s :=
    ⟨settled.weaken _, fun i r found => ⟨r, found, rfl⟩⟩
  rw [run_link] at run
  cases pass : (linkWithin answers.resolver (s.modules.length + 2) id []).run
      { s with events := s.events ++ [.link id] } with
  | mk result u =>
    obtain ⟨rfl, ends⟩ : u = t ∧ (outcome = .ok () ↔ ∃ seen, result = .ok seen) := by
      rw [Action.run_bind, pass] at run
      cases result <;> cases run <;> simp
    have stage : Stage (∃ rank, answers.Ranks s rank) s rank (rank id + 1) []
        { s with events := s.events ++ [.link id] } := by
      refine ⟨whole.of_modules rfl, by simp [Below, Entries.get?], ?_⟩
      exact fun _ i r found linking => absurd linking (rest i r found).1
    obtain ⟨after, linked⟩ := linkWithin_settles ranks pass stage (good.imp_right ends.1)
    constructor
    · intro i r found dep member
      exact (after.settled i r found dep member).atRest restAfter
    · intro ok
      obtain ⟨seen, done⟩ := ends.1 ok
      exact (linked seen done).2.atRest restAfter

end

theorem Settled.follows {R : ModuleRecord → ModuleRecord → Prop} (h : s.Settled strict)
    (follows : Follows R s t)
    (keeps : ∀ r r', R r r' → r.status.Stands strict → r'.status.Stands strict)
    (deps : ∀ r r', R r r' → r'.deps = r.deps) : t.Settled strict := by
  intro i r' found dep member
  cases before : s.modules[i]? with
  | none =>
    obtain ⟨r, fresh, move⟩ := follows.made i r' before found
    rw [deps r r' move, fresh.deps] at member
    cases member
  | some r =>
    obtain ⟨_, found', move⟩ := follows.old i r before
    cases found.symm.trans found'
    rw [deps r r' move] at member
    exact (h i r before dep member).follows follows keeps

theorem deps_evalMove (r r' : ModuleRecord) (move : EvalMove r r') : r'.deps = r.deps := by
  cases move <;> rfl

theorem evaluateWithin_linked (depth : Nat) (settled : s.Settled True) (stands : s.Stands True id) :
    ((evaluateWithin depth id).run s).1 ≠ .error (.link .notLinked) := by
  -- What stands is evaluated after what it depends on, which stands too and still does when its
  -- turn comes.
  induction depth generalizing id s with
  | zero => nofun
  | succ depth ih =>
    have course := ModuleRecord.evalMove_course
    have follows (id : ModuleId) : (evaluateWithin depth id).Along (Follows EvalMove) :=
      evaluateWithin_follows course (fun _ _ h => h) depth id
    have each (deps : List (String × ModuleId)) {s : State} (settled : s.Settled True)
        (stand : ∀ dep ∈ deps, s.Stands True dep.2) :
        ((deps.forM fun dep => evaluateWithin depth dep.2).run s).1 ≠
          .error (.link .notLinked) := by
      induction deps generalizing s with
      | nil => nofun
      | cons dep deps ihDeps =>
        show ((evaluateWithin depth dep.2 >>= fun _ =>
          deps.forM fun dep => evaluateWithin depth dep.2).run s).1 ≠ _
        have first := ih settled (stand dep List.mem_cons_self)
        have move := follows dep.2 s
        rw [Action.run_bind]
        revert first move
        rcases (evaluateWithin depth dep.2).run s with ⟨e | _, t⟩
        · intro first _ same
          cases same
          exact first rfl
        · intro _ move
          refine ihDeps (settled.follows move (fun _ _ => Stands.evalMove) deps_evalMove) ?_
          intro other member
          exact (stand other (List.mem_cons_of_mem _ member)).follows move fun _ _ =>
            Stands.evalMove
    cases run : (evaluateWithin (depth + 1) id).run s with
    | mk outcome t =>
      cases evaluateWithin_result run with
      | missing | done | refused | evaluated => nofun
      | early found status =>
        obtain ⟨r, found', stands⟩ := stands
        cases found.symm.trans found'
        rcases status with unlinked | linking
        · exact absurd unlinked stands.1
        · exact absurd linking (stands.2 trivial)
      | @wrongDeps r e u found status failed =>
        have begun : (s.modified id fun r =>
            { r with status := .evaluating, body := r.body.begun }).Settled True :=
          settled.modified found (settled id r found) fun _ => Status.evaluating_stands True
        have wrong := each r.deps begun fun dep member =>
          (settled id r found dep member).modified found fun _ => Status.evaluating_stands True
        rw [failed] at wrong
        intro same
        cases same
        exact wrong rfl
      | wrongBody found status deps ran =>
        intro same
        cases same
        cases runModule_fails _ _ _ ran with
        | body own => cases own

theorem evaluate_linked (settled : s.Settled True) (stands : s.Stands True id) :
    ((evaluate id).run s).1 ≠ .error (.link .notLinked) := by
  have recorded : Settled True { s with events := s.events ++ [.evaluate id] } := settled
  rw [run_evaluate]
  exact evaluateWithin_linked _ recorded stands

end State

/-- A link pass succeeds, or its answers rank the modules. -/
def Operation.Safe (s : State) : Operation → Prop
  | .link answers id =>
    ((State.link answers.resolver id).run s).1 = .ok () ∨ ∃ rank, answers.Ranks s rank
  | _ => True

namespace State

variable {s t : State} {id i j : ModuleId}

def SafeFrom (s : State) : List Operation → Prop
  | [] => True
  | op :: ops => op.Safe s ∧ SafeFrom (op.next s) ops

/-- The module was linked, and may have been evaluated since. -/
def Passed (s : State) (id : ModuleId) : Prop :=
  ∃ r : ModuleRecord, s.modules[id]? = some r ∧ (r.status = .linked ∨ r.status.Ended)

theorem passed_iff (rest : s.AtRest) : s.Passed id ↔ s.Stands True id := by
  constructor
  · rintro ⟨r, found, status⟩
    refine ⟨r, found, ?_⟩
    rcases status with linked | ended
    · rw [linked]
      exact Status.linked_stands True
    · exact ended.stands True
  · rintro ⟨r, found, stands⟩
    refine ⟨r, found, ?_⟩
    have busy := rest id r found
    cases status : r.status with
    | unlinked => exact absurd status stands.1
    | linking => exact absurd status busy.1
    | linked => exact .inl rfl
    | evaluating => exact absurd status busy.2
    | evaluated => exact .inr (.inl rfl)
    | errored message => exact .inr (.inr ⟨message, rfl⟩)

theorem next_settled (order : s.InOrder) (settled : s.Settled True) (op : Operation)
    (safe : op.Safe s) : (op.next s).Settled True := by
  have follows := next_follows s op
  cases op with
  | link answers id => exact (link_settles order settled rfl safe).1
  | evaluate id => exact settled.follows follows (fun _ _ => Stands.evalMove) deps_evalMove
  | _ =>
    exact settled.follows follows (fun _ _ same => same ▸ fun h => h) fun _ _ same => same ▸ rfl

theorem after_settled {ops : List Operation} (order : s.InOrder) (settled : s.Settled True)
    (safe : s.SafeFrom ops) : (s.after ops).Settled True := by
  induction ops generalizing s with
  | nil => exact settled
  | cons op ops ih =>
    exact ih ((next_moves s op).inOrder order) (next_settled order settled op safe.1) safe.2

/-- What is reached from a standing module stands, and the module can be evaluated as far as links
go. -/
theorem Settled.usable (settled : s.Settled True) (rest : s.AtRest) (passed : s.Passed i) :
    (∀ j, ReflTransGen s.DependsOn i j → s.Passed j) ∧
      ((evaluate i).run s).1 ≠ .error (.link .notLinked) := by
  have stands := (passed_iff rest).1 passed
  refine ⟨?_, evaluate_linked settled stands⟩
  intro j reach
  rw [passed_iff rest]
  induction reach with
  | refl => exact stands
  | tail _ edge _ =>
    obtain ⟨r, found, dep, member, rfl⟩ := edge
    exact settled _ r found dep member

/-- Where every link pass has succeeded or followed answers that rank the modules, whatever was
depended on has been linked. A module that a link pass succeeds for reaches linked modules only, and
no evaluation of it finds one that is not. -/
theorem deps_linked (ops : List Operation) (safe : SafeFrom {} ops) :
    (∀ i j, (after {} ops).DependsOn i j → (after {} ops).Passed j) ∧
      ∀ (answers : Answers) (i : ModuleId) (t : State),
        (link answers.resolver i).run (after {} ops) = (.ok (), t) →
          t.Passed i ∧ (∀ j, ReflTransGen t.DependsOn i j → t.Passed j) ∧
            ((evaluate i).run t).1 ≠ .error (.link .notLinked) := by
  have order := after_inOrder ops
  have rest : (after {} ops).AtRest := fun i r found => (order i r found).rests
  have settled := after_settled inOrder_empty (fun i r found => nomatch found) safe
  constructor
  · rintro i j ⟨r, found, dep, member, rfl⟩
    exact (passed_iff rest).2 (settled i r found dep member)
  · intro answers i t run
    have moves := next_moves (after {} ops) (.link answers i)
    change Follows _ _ ((link answers.resolver i).run (after {} ops)).2 at moves
    rw [run] at moves
    have later : t.AtRest := moves.atRest rest
    obtain ⟨linked, stands⟩ := link_settles order settled run (.inl rfl)
    have passed := (passed_iff later).2 (stands rfl)
    exact ⟨passed, linked.usable later passed⟩

/-- A module is left linked to one that is not: the first of two modules is at work when the second
is linked to it, and then cannot be linked itself. Linking the second one again does nothing, and
evaluating it fails. -/
theorem half_linked :
    let answers : Answers := .ofTable [("a", 0), ("b", 1)]
    let ops := pair (.ofVersion "14.0.0" 0) ++ [.link answers 0]
    (∃ e, ((link answers.resolver 0).run (after {} (pair (.ofVersion "14.0.0" 0)))).1 = .error e) ∧
      (∃ r : ModuleRecord, (after {} ops).modules[1]? = some r ∧ r.status = .linked) ∧
      (after {} ops).DependsOn 1 0 ∧ ¬(after {} ops).Passed 0 ∧
      ∃ t, (link answers.resolver 1).run (after {} ops) = (.ok (), t) ∧
        ((evaluate 1).run t).1 = .error (.link .notLinked) := by
  intro answers ops
  have modules : (after {} ops).modules =
      [{ body := .source pairFirst, context := none },
        { body := .source pairSecond, context := none, status := .linked,
          deps := [("a", 0)] }] := by
    rw [after_append, after_pair]
    rfl
  have second : (after {} ops).modules[1]? = some
      { body := .source pairSecond, context := none, status := .linked, deps := [("a", 0)] } := by
    rw [modules]
    rfl
  refine ⟨?_, ⟨_, second, rfl⟩, ⟨_, second, ("a", 0), List.mem_cons_self, rfl⟩, ?_, ?_⟩
  · rw [after_pair]
    exact ⟨_, rfl⟩
  · rintro ⟨r, found, status⟩
    rw [modules] at found
    cases found
    rcases status with status | status | ⟨_, status⟩ <;> cases status
  · rw [after_append, after_pair]
    exact ⟨_, rfl, rfl⟩

/-- A pass over the same two modules that fails without going around, and one that succeeds. -/
theorem deps_linked_pair :
    let failing : Answers := .ofTable [("b", 1)]
    let answers : Answers := .ofTable [("b", 2), ("x", 2)]
    let ops := pair (.ofVersion "14.0.0" 0) ++
      [.link failing 0, .synthetic [] { exports := [] } none]
    SafeFrom {} ops ∧ ∃ t, (link answers.resolver 0).run (after {} ops) = (.ok (), t) ∧
      t.Passed 0 ∧ (∀ j, ReflTransGen t.DependsOn 0 j → t.Passed j) ∧
        ((evaluate 0).run t).1 ≠ .error (.link .notLinked) := by
  intro failing answers ops
  have ranks : failing.Ranks (after {} (pair (.ofVersion "14.0.0" 0))) fun id => 1 - id := by
    rintro u specifier referrer dep answered id ⟨r, found, member⟩
    rw [after_pair] at found
    have named : specifier = "b" ∧ dep = 1 := by
      by_cases same : "b" = specifier
      · subst same
        cases answered
        exact ⟨rfl, rfl⟩
      · simp [failing, Answers.ofTable, Entries.get?, same] at answered
    obtain ⟨rfl, rfl⟩ := named
    have nothing : "b" ∉ pairSecond.specifiers := by decide
    rcases id with _ | _ | id
    · decide
    · cases found
      exact absurd member nothing
    · cases found
  have safe : SafeFrom {} ops := ⟨trivial, trivial, .inr ⟨_, ranks⟩, trivial, trivial⟩
  obtain ⟨t, run⟩ : ∃ t, (link answers.resolver 0).run (after {} ops) = (.ok (), t) := by
    rw [after_append, after_pair]
    exact ⟨_, rfl⟩
  obtain ⟨_, linked⟩ := deps_linked ops safe
  exact ⟨safe, t, run, linked answers 0 t run⟩

end State

end CodeCache
