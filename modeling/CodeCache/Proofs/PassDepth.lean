import CodeCache.Proofs.HalfLinked
import Mathlib

/-! # The depth of passes

Imports may lead in circles, and both passes follow them without looking back. A link pass marks the
record of a module before it goes on to the imports and enters only unlinked modules, an evaluation
does the same with linked ones. The number of such modules therefore bounds the depth of a pass, and
it never matters what would be done further down. -/

namespace CodeCache

namespace State

def linkLevel (resolve : Resolver) (linkDep : ModuleId → Seen → Action Seen) (id : ModuleId)
    (seen : Seen) : Action Seen := do
  let r ← moduleAt id
  match r.status with
  | .unlinked =>
    setStatus id .linking
    try
      let (seen, deps) ← linkImports resolve linkDep id r.body.specifiers seen
      update id ({ · with deps, status := .linked })
      pure seen
    catch e =>
      setStatus id .unlinked
      throw e
  | .errored message => throw (.link (.failedBefore message))
  | _ => return seen

def evaluateLevel (evaluateDep : ModuleId → Action Unit) (id : ModuleId) : Action Unit := do
  let r ← moduleAt id
  match r.status with
  | .linked =>
    update id fun r => { r with status := .evaluating, body := r.body.begun }
    try
      r.deps.forM fun dep => evaluateDep dep.2
      let exports ← evaluateWithin.liftExcept (runModule (← get) r)
      update id ({ · with exports, status := .evaluated })
    catch e =>
      setStatus id (.errored e.message)
      throw e
  | .evaluated | .evaluating => return
  | .errored message => throw (.evaluation (.failedBefore message))
  | .unlinked | .linking => throw (.link .notLinked)

/-- Links a module down to a level at which something else is done. -/
def linkDownTo (resolve : Resolver) (stop : ModuleId → Seen → Action Seen) (depth : Nat)
    (id : ModuleId) : Action Unit := do
  record (.link id)
  let _ ← (linkLevel resolve)^[depth] stop id []

def evaluateDownTo (stop : ModuleId → Action Unit) (depth : Nat) (id : ModuleId) : Action Unit := do
  record (.evaluate id)
  evaluateLevel^[depth] stop id

theorem linkWithin_succ (resolve : Resolver) (depth : Nat) :
    linkWithin resolve (depth + 1) = linkLevel resolve (linkWithin resolve depth) := rfl

theorem evaluateWithin_succ (depth : Nat) :
    evaluateWithin (depth + 1) = evaluateLevel (evaluateWithin depth) := rfl

/-- The upper levels of a pass are levels put on top of the lower ones. -/
theorem within_add {F : Type} {level : F → F} {within : Nat → F}
    (succ : ∀ depth, within (depth + 1) = level (within depth)) (n k : Nat) :
    within (n + k) = level^[n] (within k) := by
  induction n with
  | zero => rw [Nat.zero_add, Function.iterate_zero_apply]
  | succ n ih => rw [Nat.succ_add, succ, ih, Function.iterate_succ_apply']

section

variable {resolve : Resolver} {f g : ModuleId → Seen → Action Seen} {s : State} {id : ModuleId}
  {seen : Seen}

theorem run_linkLevel_congr
    (same : ∀ r : ModuleRecord, s.modules[id]? = some r → r.status = .unlinked →
      (linkImports resolve f id r.body.specifiers seen).run
          (s.modified id ({ · with status := .linking })) =
        (linkImports resolve g id r.body.specifiers seen).run
          (s.modified id ({ · with status := .linking }))) :
    (linkLevel resolve f id seen).run s = (linkLevel resolve g id seen).run s := by
  rw [linkLevel, linkLevel]
  cases found : s.modules[id]? with
  | none =>
    have missing : (moduleAt id).run s = (.error (.noModule id), s) := by
      rw [run_moduleAt, found]
    rw [Action.run_bind_error missing, Action.run_bind_error missing]
  | some r =>
    rw [Action.run_bind_ok (run_moduleAt_of found), Action.run_bind_ok (run_moduleAt_of found)]
    by_cases unlinked : r.status = .unlinked
    · simp only [unlinked, setStatus]
      rw [Action.run_bind_ok (run_update_eq id _ s), Action.run_bind_ok (run_update_eq id _ s),
        Action.run_tryCatch, Action.run_tryCatch, Action.run_bind, Action.run_bind,
        same r found unlinked]
    · cases status : r.status with
      | unlinked => exact absurd status unlinked
      | _ => rfl

theorem run_evaluateLevel_congr {f g : ModuleId → Action Unit}
    (same : ∀ r : ModuleRecord, s.modules[id]? = some r → r.status = .linked →
      (r.deps.forM fun dep => f dep.2).run
          (s.modified id fun r => { r with status := .evaluating, body := r.body.begun }) =
        (r.deps.forM fun dep => g dep.2).run
          (s.modified id fun r => { r with status := .evaluating, body := r.body.begun })) :
    (evaluateLevel f id).run s = (evaluateLevel g id).run s := by
  rw [evaluateLevel, evaluateLevel]
  cases found : s.modules[id]? with
  | none =>
    have missing : (moduleAt id).run s = (.error (.noModule id), s) := by
      rw [run_moduleAt, found]
    rw [Action.run_bind_error missing, Action.run_bind_error missing]
  | some r =>
    rw [Action.run_bind_ok (run_moduleAt_of found), Action.run_bind_ok (run_moduleAt_of found)]
    by_cases linked : r.status = .linked
    · simp only [linked]
      rw [Action.run_bind_ok (run_update_eq id _ s), Action.run_bind_ok (run_update_eq id _ s),
        Action.run_tryCatch, Action.run_tryCatch, Action.run_bind, Action.run_bind,
        same r found linked]
    · cases status : r.status with
      | linked => exact absurd status linked
      | _ => rfl

end

def having (s : State) (status : Status) : Finset ModuleId :=
  (Finset.range s.modules.length).filter fun i => s.modules[i]?.map (·.status) = some status

section

variable {s t : State} {i id : ModuleId} {status : Status} {f : ModuleRecord → ModuleRecord}

theorem mem_having :
    i ∈ s.having status ↔ ∃ r : ModuleRecord, s.modules[i]? = some r ∧ r.status = status := by
  rw [having, Finset.mem_filter, Finset.mem_range, Option.map_eq_some_iff]
  constructor
  · exact fun h => h.2
  · rintro ⟨r, found, has⟩
    exact ⟨(List.getElem?_eq_some_iff.1 found).1, r, found, has⟩

theorem card_having_le (s : State) (status : Status) :
    (s.having status).card ≤ s.modules.length := by
  have bound := Finset.card_filter_le (Finset.range s.modules.length)
    fun i => s.modules[i]?.map (·.status) = some status
  rwa [Finset.card_range] at bound

theorem mem_having_modified (other : i ≠ id) :
    i ∈ (s.modified id f).having status ↔ i ∈ s.having status := by
  rw [mem_having, mem_having, (onlyAt_modified s id f).other i other]

theorem having_modified_subset (s : State) (id : ModuleId) (f : ModuleRecord → ModuleRecord)
    (status : Status) : (s.modified id f).having status ⊆ insert id (s.having status) := by
  intro i member
  by_cases here : i = id
  · rw [here]
    exact Finset.mem_insert_self id _
  · exact Finset.mem_insert_of_mem ((mem_having_modified here).1 member)

theorem having_modified (s : State) (id : ModuleId) (away : ∀ r, (f r).status ≠ status) :
    (s.modified id f).having status = (s.having status).erase id := by
  ext i
  rw [Finset.mem_erase]
  by_cases here : i = id
  · subst here
    refine iff_of_false ?_ (fun h => h.1 rfl)
    intro member
    obtain ⟨r, found, has⟩ := mem_having.1 member
    cases before : s.modules[i]? with
    | none => simp [modified, before] at found
    | some q =>
      cases (getElem?_modified before f).symm.trans found
      exact away q has
  · rw [mem_having_modified here]
    exact ⟨fun member => ⟨here, member⟩, fun h => h.2⟩

def Sheds (status : Status) (s t : State) : Prop := t.having status ⊆ s.having status

theorem sheds_sequential (status : Status) : Sequential (Action.Along (Sheds status)) :=
  .ofRelation (fun _ => Finset.Subset.refl _) (fun h k => Finset.Subset.trans k h)
    fun _ _ => Finset.Subset.refl _

theorem sheds_resolver (status : Status) (answers : Answers) (specifier : String)
    (referrer : ModuleId) : (answers.resolver specifier referrer).Along (Sheds status) := by
  intro s
  rw [run_resolver]
  exact Finset.Subset.refl _

/-- What happens between taking a status from a module and giving it back or another one. -/
theorem Sheds.around {g : ModuleRecord → ModuleRecord} {r : ModuleRecord}
    (found : s.modules[id]? = some r) (has : r.status = status)
    (away : ∀ r, (f r).status ≠ status) (inner : Sheds status (s.modified id f) t) :
    Sheds status s (t.modified id g) := by
  have mine : id ∈ s.having status := mem_having.2 ⟨r, found, has⟩
  rw [Sheds, having_modified s id away] at inner
  calc (t.modified id g).having status
      ⊆ insert id (t.having status) := having_modified_subset t id g status
    _ ⊆ insert id ((s.having status).erase id) := Finset.insert_subset_insert id inner
    _ = s.having status := Finset.insert_erase mine

/-- The mark on a module leaves one fewer to go. -/
theorem card_having_lt {r : ModuleRecord} (found : s.modules[id]? = some r)
    (has : r.status = status) (away : ∀ r, (f r).status ≠ status) :
    ((s.modified id f).having status).card < (s.having status).card := by
  rw [having_modified s id away]
  exact Finset.card_erase_lt_of_mem (mem_having.2 ⟨r, found, has⟩)

theorem linkWithin_sheds (answers : Answers) (depth : Nat) (id : ModuleId) (seen : Seen) :
    (linkWithin answers.resolver depth id seen).Along (Sheds .unlinked) := by
  induction depth generalizing id seen with
  | zero => exact fun s => Finset.Subset.refl _
  | succ depth ih =>
    intro s
    have imports (r : ModuleRecord) := (sheds_sequential .unlinked).linkImports
      (sheds_resolver .unlinked answers) ih id r.body.specifiers seen
      (s.modified id ({ · with status := .linking }))
    cases run : (linkWithin answers.resolver (depth + 1) id seen).run s
    cases linkWithin_result run with
    | missing | done | refused => exact Finset.Subset.refl _
    | @linked r _ _ _ found status pass | @failed r _ _ found status pass =>
      have inner := imports r
      rw [pass] at inner
      exact inner.around found status (by simp)

theorem evaluateWithin_sheds (depth : Nat) (id : ModuleId) :
    (evaluateWithin depth id).Along (Sheds .linked) := by
  induction depth generalizing id with
  | zero => exact fun s => Finset.Subset.refl _
  | succ depth ih =>
    intro s
    have deps (r : ModuleRecord) :
        Action.Along (Sheds .linked) (r.deps.forM fun dep => evaluateWithin depth dep.2) :=
      (sheds_sequential .linked).forM fun dep => ih dep.2
    cases run : (evaluateWithin (depth + 1) id).run s
    cases evaluateWithin_result run with
    | missing | done | refused | early => exact Finset.Subset.refl _
    | @evaluated r _ _ found status pass | @wrongDeps r _ _ found status pass
    | @wrongBody r _ _ found status pass =>
      have inner := deps r (s.modified id fun r =>
        { r with status := .evaluating, body := r.body.begun })
      rw [pass] at inner
      exact inner.around found status (by simp)

end

def Fewer (status : Status) (n : Nat) (s : State) : Prop := (s.having status).card < n

theorem Sheds.fewer {status : Status} {n : Nat} {s t : State} (h : Sheds status s t)
    (few : Fewer status n s) : Fewer status n t :=
  Nat.lt_of_le_of_lt (Finset.card_le_card h) few

end State

/-- From the states of a class two computations do the same and stay in the class. -/
def Action.SameOn {α : Type} (I : State → Prop) (a b : Action α) : Prop :=
  ∀ s, I s → a.run s = b.run s ∧ I (b.run s).2

theorem Action.sameOn_parallel {I : State → Prop} (record : ∀ s events, I s → I { s with events }) :
    Parallel (Action.SameOn I) := by
  constructor
  case pure => exact fun x s holds => ⟨rfl, holds⟩
  case throw => exact fun e s holds => ⟨rfl, holds⟩
  case bind =>
    intro α β a b f g first next s holds
    obtain ⟨same, between⟩ := first s holds
    rw [Action.run_bind, Action.run_bind, same]
    revert between
    rcases b.run s with ⟨_ | x, t⟩
    · exact fun between => ⟨rfl, between⟩
    · exact next x t
  case record => exact fun event s holds => ⟨rfl, record s _ holds⟩

namespace State

open CodeCache.Action (SameOn)

theorem sameOn_fewer (status : Status) (n : Nat) : Parallel (SameOn (Fewer status n)) :=
  Action.sameOn_parallel fun _ _ few => few

/-- By induction on the depth, which exceeds the number of unlinked modules: the mark on a module
leaves fewer of them for its imports. -/
theorem linkLevel_iterate (answers : Answers) (stop : ModuleId → Seen → Action Seen) (depth : Nat)
    (id : ModuleId) (seen : Seen) :
    SameOn (Fewer .unlinked depth) ((linkLevel answers.resolver)^[depth] stop id seen)
      (linkWithin answers.resolver depth id seen) := by
  induction depth generalizing id seen with
  | zero => exact fun s few => absurd few (Nat.not_lt_zero _)
  | succ depth ih =>
    intro s few
    refine ⟨?_, (linkWithin_sheds answers _ id seen s).fewer few⟩
    rw [Function.iterate_succ_apply', linkWithin_succ]
    apply run_linkLevel_congr
    intro r found unlinked
    have marked := card_having_lt (f := ({ · with status := .linking })) found unlinked (by simp)
    have resolving (specifier : String) (referrer : ModuleId) :
        SameOn (Fewer .unlinked depth) (answers.resolver specifier referrer)
          (answers.resolver specifier referrer) :=
      fun s few => ⟨rfl, (sheds_resolver .unlinked answers specifier referrer s).fewer few⟩
    have imports := (sameOn_fewer .unlinked depth).linkImports resolving ih id r.body.specifiers
      seen
    exact (imports _ (Nat.lt_of_lt_of_le marked (Nat.le_of_lt_succ few))).1

theorem evaluateLevel_iterate (stop : ModuleId → Action Unit) (depth : Nat) (id : ModuleId) :
    SameOn (Fewer .linked depth) (evaluateLevel^[depth] stop id) (evaluateWithin depth id) := by
  induction depth generalizing id with
  | zero => exact fun s few => absurd few (Nat.not_lt_zero _)
  | succ depth ih =>
    intro s few
    refine ⟨?_, (evaluateWithin_sheds _ id s).fewer few⟩
    rw [Function.iterate_succ_apply', evaluateWithin_succ]
    apply run_evaluateLevel_congr
    intro r found linked
    have marked := card_having_lt (f := fun r =>
      { r with status := .evaluating, body := r.body.begun }) found linked (by simp)
    have deps : SameOn (Fewer .linked depth)
        (r.deps.forM fun dep => evaluateLevel^[depth] stop dep.2)
        (r.deps.forM fun dep => evaluateWithin depth dep.2) :=
      (sameOn_fewer .linked depth).forM fun dep => ih dep.2
    exact (deps _ (Nat.lt_of_lt_of_le marked (Nat.le_of_lt_succ few))).1

section

variable {s : State} {n depth : Nat}

theorem linkWithin_of_le (answers : Answers) (few : Fewer .unlinked n s) (deep : n ≤ depth)
    (id : ModuleId) (seen : Seen) :
    (linkWithin answers.resolver depth id seen).run s =
      (linkWithin answers.resolver n id seen).run s := by
  obtain ⟨k, rfl⟩ := Nat.exists_eq_add_of_le deep
  rw [within_add (linkWithin_succ answers.resolver)]
  exact (linkLevel_iterate answers _ n id seen s few).1

theorem evaluateWithin_of_le (few : Fewer .linked n s) (deep : n ≤ depth) (id : ModuleId) :
    (evaluateWithin depth id).run s = (evaluateWithin n id).run s := by
  obtain ⟨k, rfl⟩ := Nat.exists_eq_add_of_le deep
  rw [within_add evaluateWithin_succ]
  exact (evaluateLevel_iterate _ n id s few).1

theorem run_linkDownTo (answers : Answers) (stop : ModuleId → Seen → Action Seen)
    (few : Fewer .unlinked depth s) (id : ModuleId) :
    (linkDownTo answers.resolver stop depth id).run s = (link answers.resolver id).run s := by
  let recorded : State := { s with events := s.events ++ [.link id] }
  have down : ((linkLevel answers.resolver)^[depth] stop id []).run recorded =
      (linkWithin answers.resolver depth id []).run recorded :=
    (linkLevel_iterate answers stop depth id [] recorded few).1
  have enough : (s.having .unlinked).card + 1 ≤ s.modules.length + 2 :=
    Nat.le_succ_of_le (Nat.succ_le_succ (card_having_le s .unlinked))
  have few' : Fewer .unlinked ((s.having .unlinked).card + 1) recorded := Nat.lt_succ_self _
  have bounded := linkWithin_of_le answers few' enough id []
  rw [← linkWithin_of_le answers few' few id []] at bounded
  rw [run_link]
  show ((linkLevel answers.resolver)^[depth] stop id [] >>= fun _ => pure ()).run recorded = _
  rw [Action.run_bind, Action.run_bind, down, bounded]

theorem run_evaluateDownTo (stop : ModuleId → Action Unit) (few : Fewer .linked depth s)
    (id : ModuleId) : (evaluateDownTo stop depth id).run s = (evaluate id).run s := by
  let recorded : State := { s with events := s.events ++ [.evaluate id] }
  have down : (evaluateLevel^[depth] stop id).run recorded =
      (evaluateWithin depth id).run recorded :=
    (evaluateLevel_iterate stop depth id recorded few).1
  have enough : (s.having .linked).card + 1 ≤ s.modules.length + 1 :=
    Nat.succ_le_succ (card_having_le s .linked)
  have few' : Fewer .linked ((s.having .linked).card + 1) recorded := Nat.lt_succ_self _
  have bounded := evaluateWithin_of_le few' enough id
  rw [← evaluateWithin_of_le few' few id] at bounded
  rw [run_evaluate]
  exact down.trans bounded.symm

end

end State

end CodeCache
