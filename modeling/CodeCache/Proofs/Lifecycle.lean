import CodeCache.Proofs.Linking
import CodeCache.Proofs.Stepwise
import Mathlib.Logic.Relation

/-! # The life of a module

A module is made unlinked. A link pass links it or leaves it as it was, and an evaluation ends well
or leaves it in error. A pass marks the record of a module while it works on it, and no other pass
touches a marked record; seen from outside, a record changes as a whole or not at all. -/

namespace CodeCache

open Relation (ReflTransGen)

def Status.Rests (status : Status) : Prop := status ≠ .linking ∧ status ≠ .evaluating

instance (status : Status) : Decidable status.Rests := inferInstanceAs (Decidable (_ ∧ _))

namespace ModuleBody

/-- The setup of a synthetic body is still there. -/
def Ready (body : ModuleBody) : Prop := ∀ names, body ≠ .synthetic names none

theorem specifiers_begun (body : ModuleBody) : body.begun.specifiers = body.specifiers := by
  cases body <;> rfl

end ModuleBody

namespace ModuleRecord

structure Fresh (r : ModuleRecord) : Prop where
  status : r.status = .unlinked
  deps : r.deps = []
  exports : r.exports = []
  ready : r.body.Ready

inductive LinkMove (r : ModuleRecord) : ModuleRecord → Prop where
  | same : LinkMove r r
  | linked {deps : List (String × ModuleId)} (status : r.status = .unlinked)
      (named : deps.map (·.1) = r.body.specifiers) :
      LinkMove r { r with deps, status := .linked }

inductive EvalMove (r : ModuleRecord) : ModuleRecord → Prop where
  | same : EvalMove r r
  | evaluated {exports : Fields} (status : r.status = .linked) :
      EvalMove r { r with body := r.body.begun, exports, status := .evaluated }
  | errored {message : String} (status : r.status = .linked) :
      EvalMove r { r with body := r.body.begun, status := .errored message }

def Moves : ModuleRecord → ModuleRecord → Prop :=
  ReflTransGen fun r r' => r.LinkMove r' ∨ r.EvalMove r'

structure Course (R : ModuleRecord → ModuleRecord → Prop) : Prop where
  refl : ∀ r, R r r
  trans : ∀ {r r' r''}, R r r' → R r' r'' → R r r''
  busy : ∀ {r r'}, R r r' → ¬r.status.Rests → r' = r

theorem LinkMove.busy {r r' : ModuleRecord} (h : r.LinkMove r') (busy : ¬r.status.Rests) :
    r' = r := by
  cases h with
  | same => rfl
  | linked status => exact absurd (by simp [Status.Rests, status]) busy

theorem EvalMove.busy {r r' : ModuleRecord} (h : r.EvalMove r') (busy : ¬r.status.Rests) :
    r' = r := by
  cases h with
  | same => rfl
  | evaluated status | errored status => exact absurd (by simp [Status.Rests, status]) busy

theorem eq_course : Course Eq := by
  constructor
  · exact fun _ => rfl
  · exact fun h k => h.trans k
  · exact fun h _ => h.symm

theorem linkMove_course : Course LinkMove := by
  constructor
  · exact fun _ => .same
  · intro r r' r'' h k
    cases h with
    | same => exact k
    | linked status named =>
      cases k with
      | same => exact .linked status named
      | linked status' => cases status'
  · exact LinkMove.busy

theorem evalMove_course : Course EvalMove := by
  constructor
  · exact fun _ => .same
  · intro r r' r'' h k
    cases h with
    | same => exact k
    | evaluated status =>
      cases k with
      | same => exact .evaluated status
      | evaluated status' | errored status' => cases status'
    | errored status =>
      cases k with
      | same => exact .errored status
      | evaluated status' | errored status' => cases status'
  · exact EvalMove.busy

theorem moves_course : Course Moves := by
  constructor
  · exact fun _ => .refl
  · exact fun h k => ReflTransGen.trans h k
  · intro r r' h busy
    induction h with
    | refl => rfl
    | tail _ last ih =>
      subst ih
      rcases last with link | evaluation
      · exact link.busy busy
      · exact evaluation.busy busy

end ModuleRecord

namespace State

open ModuleRecord (Course LinkMove EvalMove Moves)

variable {R : ModuleRecord → ModuleRecord → Prop} {s t u : State} {id : ModuleId}

/-- The records that exist are changed by the relation, and new ones have come from fresh ones by
it. -/
structure Follows (R : ModuleRecord → ModuleRecord → Prop) (s t : State) : Prop where
  old : ∀ (i : ModuleId) (r : ModuleRecord), s.modules[i]? = some r →
    ∃ r' : ModuleRecord, t.modules[i]? = some r' ∧ R r r'
  made : ∀ (i : ModuleId) (r' : ModuleRecord), s.modules[i]? = none → t.modules[i]? = some r' →
    ∃ r : ModuleRecord, r.Fresh ∧ R r r'

theorem Follows.of_modules (course : Course R) (same : t.modules = s.modules) : Follows R s t := by
  constructor
  · intro i r found
    exact ⟨r, by rw [same, found], course.refl r⟩
  · intro i r' missing found
    rw [same, missing] at found
    cases found

theorem Follows.refl (course : Course R) (s : State) : Follows R s s := .of_modules course rfl

theorem Follows.trans (course : Course R) (h : Follows R s t) (k : Follows R t u) :
    Follows R s u := by
  constructor
  · intro i r found
    obtain ⟨r', found', first⟩ := h.old i r found
    obtain ⟨r'', found'', second⟩ := k.old i r' found'
    exact ⟨r'', found'', course.trans first second⟩
  · intro i r'' missing found
    cases between : t.modules[i]? with
    | none => exact k.made i r'' between found
    | some r' =>
      obtain ⟨r, fresh, first⟩ := h.made i r' missing between
      obtain ⟨_, found', second⟩ := k.old i r' between
      cases found.symm.trans found'
      exact ⟨r, fresh, course.trans first second⟩

theorem Follows.mono {R' : ModuleRecord → ModuleRecord → Prop} (h : Follows R s t)
    (imp : ∀ r r', R r r' → R' r r') : Follows R' s t := by
  constructor
  · intro i r found
    obtain ⟨r', found', step⟩ := h.old i r found
    exact ⟨r', found', imp r r' step⟩
  · intro i r' missing found
    obtain ⟨r, fresh, step⟩ := h.made i r' missing found
    exact ⟨r, fresh, imp r r' step⟩

theorem follows_add (course : Course R) {r : ModuleRecord} (fresh : r.Fresh) (s : State) :
    Follows R s { s with modules := s.modules ++ [r] } := by
  constructor
  · intro i q found
    have low : i < s.modules.length := (List.getElem?_eq_some_iff.1 found).1
    exact ⟨q, by rw [List.getElem?_append_left low, found], course.refl q⟩
  · intro i q missing found
    have high : s.modules.length ≤ i := List.getElem?_eq_none_iff.1 missing
    rw [List.getElem?_append_right high, List.getElem?_singleton] at found
    split at found
    · cases found
      exact ⟨r, fresh, course.refl r⟩
    · cases found

/-- What holds of fresh records and is kept by the relation holds of all records afterwards. -/
theorem Follows.invariant {P : ModuleRecord → Prop} (h : Follows R s t)
    (fresh : ∀ r : ModuleRecord, r.Fresh → P r) (step : ∀ r r', R r r' → P r → P r')
    (all : ∀ (i : ModuleId) (r : ModuleRecord), s.modules[i]? = some r → P r) (i : ModuleId)
    (r' : ModuleRecord) (found : t.modules[i]? = some r') : P r' := by
  cases before : s.modules[i]? with
  | none =>
    obtain ⟨r, made, move⟩ := h.made i r' before found
    exact step r r' move (fresh r made)
  | some r =>
    obtain ⟨_, found', move⟩ := h.old i r before
    cases found.symm.trans found'
    exact step r r' move (all i r before)

theorem Follows.unmoved (h : Follows R s t) {r : ModuleRecord} (found : t.modules[id]? = some r)
    (made : r.status ≠ .unlinked) (back : ∀ q, R q r → q = r) : s.modules[id]? = some r := by
  cases before : s.modules[id]? with
  | none =>
    obtain ⟨q, fresh, move⟩ := h.made id r before found
    cases back q move
    exact absurd fresh.status made
  | some q =>
    obtain ⟨_, found', move⟩ := h.old id q before
    cases found.symm.trans found'
    rw [back q move]

theorem Follows.busy (course : Course R) (h : Follows R s t) {r : ModuleRecord}
    (found : s.modules[id]? = some r) (busy : ¬r.status.Rests) : t.modules[id]? = some r := by
  obtain ⟨r', found', step⟩ := h.old id r found
  rw [found', course.busy step busy]

/-- A record that is marked before and completed after what is done in between. -/
theorem Follows.around (course : Course R) {f g : ModuleRecord → ModuleRecord} {r : ModuleRecord}
    (found : s.modules[id]? = some r) (busy : ¬(f r).status.Rests)
    (inner : Follows R (s.modified id f) t) (whole : R r (g (f r))) :
    Follows R s (t.modified id g) := by
  have before := onlyAt_modified s id f
  have after := onlyAt_modified t id g
  constructor
  · intro i q foundAt
    by_cases here : i = id
    · subst here
      cases found.symm.trans foundAt
      have kept := inner.busy course (getElem?_modified found f) busy
      exact ⟨g (f r), getElem?_modified kept g, whole⟩
    · obtain ⟨q', found', step⟩ := inner.old i q ((before.other i here).trans foundAt)
      exact ⟨q', (after.other i here).trans found', step⟩
  · intro i q missing foundAt
    have other : i ≠ id := by
      rintro rfl
      cases missing.symm.trans found
    exact inner.made i q ((before.other i other).trans missing)
      ((after.other i other).symm.trans foundAt)

theorem follows_sequential (course : Course R) : Sequential (Action.Along (Follows R)) :=
  .ofRelation (Follows.refl course) (Follows.trans course) fun _ _ => .of_modules course rfl

section

variable {resolve : Resolver} {linkDep : ModuleId → Seen → Action Seen} {depth : Nat}
  {referrer : ModuleId} {specifier : String} {specifiers rest : List String} {seen seen' : Seen}
  {deps : List (String × ModuleId)} {e : LoadError}

theorem linkImports_cons_ok :
    (linkImports resolve linkDep referrer (specifier :: rest) seen).run s = (.ok (seen', deps), t) ↔
      ∃ dep u seen₁ v deps', (resolveOnce resolve referrer seen specifier).run s = (.ok dep, u) ∧
        (linkDep dep (seen.insert specifier dep)).run u = (.ok seen₁, v) ∧
        (linkImports resolve linkDep referrer rest seen₁).run v = (.ok (seen', deps'), t) ∧
        deps = (specifier, dep) :: deps' := by
  simp only [linkImports, Action.run_bind_eq_ok]
  constructor
  · rintro ⟨dep, u, resolved, seen₁, v, linked, ⟨seen₂, deps'⟩, w, others, last⟩
    cases last
    exact ⟨dep, u, seen₁, v, deps', resolved, linked, others, rfl⟩
  · rintro ⟨dep, u, seen₁, v, deps', resolved, linked, others, rfl⟩
    exact ⟨dep, u, resolved, seen₁, v, linked, (seen', deps'), t, others, rfl⟩

theorem linkImports_cons_error :
    (linkImports resolve linkDep referrer (specifier :: rest) seen).run s = (.error e, t) ↔
      (resolveOnce resolve referrer seen specifier).run s = (.error e, t) ∨
      ∃ dep u, (resolveOnce resolve referrer seen specifier).run s = (.ok dep, u) ∧
        ((linkDep dep (seen.insert specifier dep)).run u = (.error e, t) ∨
          ∃ seen₁ v, (linkDep dep (seen.insert specifier dep)).run u = (.ok seen₁, v) ∧
            (linkImports resolve linkDep referrer rest seen₁).run v = (.error e, t)) := by
  simp only [linkImports, Action.run_bind_eq_error]
  constructor
  · rintro (failed | ⟨dep, u, resolved, failed | ⟨seen₁, v, linked, failed | ⟨_, _, _, last⟩⟩⟩)
    · exact .inl failed
    · exact .inr ⟨dep, u, resolved, .inl failed⟩
    · exact .inr ⟨dep, u, resolved, .inr ⟨seen₁, v, linked, failed⟩⟩
    · cases last
  · rintro (failed | ⟨dep, u, resolved, failed | ⟨seen₁, v, linked, failed⟩⟩)
    · exact .inl failed
    · exact .inr ⟨dep, u, resolved, .inl failed⟩
    · exact .inr ⟨dep, u, resolved, .inr ⟨seen₁, v, linked, .inl failed⟩⟩

theorem names_of_linkImports
    (run : (linkImports resolve linkDep referrer specifiers seen).run s = (.ok (seen', deps), t)) :
    deps.map (·.1) = specifiers := by
  induction specifiers generalizing seen s deps with
  | nil =>
    cases run
    rfl
  | cons specifier rest ih =>
    obtain ⟨dep, u, seen₁, v, deps', _, _, others, rfl⟩ := linkImports_cons_ok.1 run
    rw [List.map_cons, ih others]

inductive LinkResult (resolve : Resolver) (depth : Nat) (id : ModuleId) (seen : Seen) (s : State) :
    Except LoadError Seen → State → Prop where
  | missing (missing : s.modules[id]? = none) :
      LinkResult resolve depth id seen s (.error (.noModule id)) s
  | done {r : ModuleRecord} (found : s.modules[id]? = some r) (status : r.status ≠ .unlinked)
      (healthy : ∀ message, r.status ≠ .errored message) :
      LinkResult resolve depth id seen s (.ok seen) s
  | refused {r : ModuleRecord} {message : String} (found : s.modules[id]? = some r)
      (status : r.status = .errored message) :
      LinkResult resolve depth id seen s (.error (.link (.failedBefore message))) s
  | linked {r : ModuleRecord} {seen' : Seen} {deps : List (String × ModuleId)} {t : State}
      (found : s.modules[id]? = some r) (status : r.status = .unlinked)
      (imports : (linkImports resolve (linkWithin resolve depth) id r.body.specifiers seen).run
        (s.modified id ({ · with status := .linking })) = (.ok (seen', deps), t)) :
      LinkResult resolve depth id seen s (.ok seen')
        (t.modified id ({ · with deps, status := .linked }))
  | failed {r : ModuleRecord} {e : LoadError} {t : State} (found : s.modules[id]? = some r)
      (status : r.status = .unlinked)
      (imports : (linkImports resolve (linkWithin resolve depth) id r.body.specifiers seen).run
        (s.modified id ({ · with status := .linking })) = (.error e, t)) :
      LinkResult resolve depth id seen s (.error e)
        (t.modified id ({ · with status := .unlinked }))

theorem linkWithin_result {outcome : Except LoadError Seen}
    (run : (linkWithin resolve (depth + 1) id seen).run s = (outcome, t)) :
    LinkResult resolve depth id seen s outcome t := by
  cases found : s.modules[id]? with
  | none =>
    rw [linkWithin, Action.run_bind, run_moduleAt, found] at run
    cases run
    exact .missing found
  | some r =>
    by_cases unlinked : r.status = .unlinked
    · cases imports : (linkImports resolve (linkWithin resolve depth) id r.body.specifiers seen).run
          (s.modified id ({ · with status := .linking })) with
      | mk result u =>
        cases result with
        | ok made =>
          rw [run_linkWithin_of_ok found unlinked imports] at run
          cases run
          exact .linked found unlinked imports
        | error e =>
          rw [run_linkWithin_of_error found unlinked imports] at run
          cases run
          exact .failed found unlinked imports
    · rw [linkWithin, Action.run_bind_ok (run_moduleAt_of found)] at run
      cases status : r.status with
      | unlinked => exact absurd status unlinked
      | errored message =>
        simp only [status] at run
        cases run
        exact .refused found status
      | linking | linked | evaluating | evaluated =>
        simp only [status] at run
        cases run
        exact .done found (by simp [status]) (by simp [status])

end

section

variable {depth : Nat}

inductive EvalResult (depth : Nat) (id : ModuleId) (s : State) :
    Except LoadError Unit → State → Prop where
  | missing (missing : s.modules[id]? = none) : EvalResult depth id s (.error (.noModule id)) s
  | done {r : ModuleRecord} (found : s.modules[id]? = some r)
      (status : r.status = .evaluated ∨ r.status = .evaluating) : EvalResult depth id s (.ok ()) s
  | refused {r : ModuleRecord} {message : String} (found : s.modules[id]? = some r)
      (status : r.status = .errored message) :
      EvalResult depth id s (.error (.evaluation (.failedBefore message))) s
  | early {r : ModuleRecord} (found : s.modules[id]? = some r)
      (status : r.status = .unlinked ∨ r.status = .linking) :
      EvalResult depth id s (.error (.link .notLinked)) s
  | evaluated {r : ModuleRecord} {exports : Fields} {t : State} (found : s.modules[id]? = some r)
      (status : r.status = .linked)
      (deps : (r.deps.forM fun dep => evaluateWithin depth dep.2).run
        (s.modified id fun r => { r with status := .evaluating, body := r.body.begun }) =
          (.ok (), t))
      (ran : runModule t r = .ok exports) :
      EvalResult depth id s (.ok ()) (t.modified id ({ · with exports, status := .evaluated }))
  | wrongDeps {r : ModuleRecord} {e : LoadError} {t : State} (found : s.modules[id]? = some r)
      (status : r.status = .linked)
      (deps : (r.deps.forM fun dep => evaluateWithin depth dep.2).run
        (s.modified id fun r => { r with status := .evaluating, body := r.body.begun }) =
          (.error e, t)) :
      EvalResult depth id s (.error e) (t.modified id ({ · with status := .errored e.message }))
  | wrongBody {r : ModuleRecord} {e : LoadError} {t : State} (found : s.modules[id]? = some r)
      (status : r.status = .linked)
      (deps : (r.deps.forM fun dep => evaluateWithin depth dep.2).run
        (s.modified id fun r => { r with status := .evaluating, body := r.body.begun }) =
          (.ok (), t))
      (ran : runModule t r = .error e) :
      EvalResult depth id s (.error e) (t.modified id ({ · with status := .errored e.message }))

theorem run_evaluateWithin_of_deps {r : ModuleRecord} {e : LoadError}
    (found : s.modules[id]? = some r) (status : r.status = .linked)
    (deps : (r.deps.forM fun dep => evaluateWithin depth dep.2).run
      (s.modified id fun r => { r with status := .evaluating, body := r.body.begun }) =
        (.error e, t)) :
    (evaluateWithin (depth + 1) id).run s =
      (.error e, t.modified id ({ · with status := .errored e.message })) := by
  rw [evaluateWithin, Action.run_bind_ok (run_moduleAt_of found)]
  simp only [status]
  rw [Action.run_bind_ok (run_update_eq id _ s), Action.run_tryCatch, Action.run_bind_error deps]
  rfl

theorem evaluateWithin_result {outcome : Except LoadError Unit}
    (run : (evaluateWithin (depth + 1) id).run s = (outcome, t)) :
    EvalResult depth id s outcome t := by
  cases found : s.modules[id]? with
  | none =>
    rw [evaluateWithin, Action.run_bind, run_moduleAt, found] at run
    cases run
    exact .missing found
  | some r =>
    by_cases linked : r.status = .linked
    · cases deps : (r.deps.forM fun dep => evaluateWithin depth dep.2).run
          (s.modified id fun r => { r with status := .evaluating, body := r.body.begun }) with
      | mk result u =>
        cases result with
        | error e =>
          rw [run_evaluateWithin_of_deps found linked deps] at run
          cases run
          exact .wrongDeps found linked deps
        | ok _ =>
          cases ran : runModule u r with
          | error e =>
            rw [run_evaluateWithin_of_error found linked deps ran] at run
            cases run
            exact .wrongBody found linked deps ran
          | ok exports =>
            rw [run_evaluateWithin_of_ok found linked deps ran] at run
            cases run
            exact .evaluated found linked deps ran
    · rw [evaluateWithin, Action.run_bind_ok (run_moduleAt_of found)] at run
      cases status : r.status with
      | linked => exact absurd status linked
      | errored message =>
        simp only [status] at run
        cases run
        exact .refused found status
      | evaluated =>
        simp only [status] at run
        cases run
        exact .done found (.inl status)
      | evaluating =>
        simp only [status] at run
        cases run
        exact .done found (.inr status)
      | unlinked =>
        simp only [status] at run
        cases run
        exact .early found (.inl status)
      | linking =>
        simp only [status] at run
        cases run
        exact .early found (.inr status)

end

section

variable {resolve : Resolver}

theorem linkWithin_follows (course : Course R) (moves : ∀ r r', LinkMove r r' → R r r')
    (hr : ∀ specifier referrer, (resolve specifier referrer).Along (Follows R)) (depth : Nat)
    (id : ModuleId) (seen : Seen) : (linkWithin resolve depth id seen).Along (Follows R) := by
  induction depth generalizing id seen with
  | zero => exact fun s => .refl course s
  | succ depth ih =>
    intro s
    have imports (r : ModuleRecord) := (follows_sequential course).linkImports hr ih id
      r.body.specifiers seen (s.modified id ({ · with status := .linking }))
    cases run : (linkWithin resolve (depth + 1) id seen).run s
    cases linkWithin_result run with
    | missing | done | refused => exact .refl course s
    | @linked r seen' deps t found status linked =>
      have inner := imports r
      -- The mark keeps the passes of the imports off the record, so that the two changes are one.
      rw [linked] at inner
      refine .around course found (by simp [Status.Rests]) inner ?_
      exact moves _ _ (.linked status (names_of_linkImports linked))
    | @failed r e t found status failed =>
      have inner := imports r
      rw [failed] at inner
      refine .around course found (by simp [Status.Rests]) inner ?_
      show R r { r with status := .unlinked }
      rw [← status]
      exact course.refl r

theorem link_follows (course : Course R) (moves : ∀ r r', LinkMove r r' → R r r')
    (hr : ∀ specifier referrer, (resolve specifier referrer).Along (Follows R)) (id : ModuleId) :
    (link resolve id).Along (Follows R) := by
  intro s
  rw [run_link]
  have linked := (follows_sequential course).bind
    (linkWithin_follows course moves hr (s.modules.length + 2) id [])
    fun _ => (follows_sequential course).pure ()
  have recorded : Follows R s { s with events := s.events ++ [.link id] } := .of_modules course rfl
  exact recorded.trans course (linked _)

end

/-- What an evaluation does to records, given what the end of a body does to the record of its
module: well, with the exports that the body has come to, or not. -/
theorem evaluateWithin_follows_of_run (course : Course R)
    (evaluated : ∀ (r : ModuleRecord) (t : State) (exports : Fields), r.status = .linked →
      runModule t r = .ok exports →
        R r { r with body := r.body.begun, exports, status := .evaluated })
    (errored : ∀ (r : ModuleRecord) (message : String), r.status = .linked →
      R r { r with body := r.body.begun, status := .errored message })
    (depth : Nat) (id : ModuleId) : (evaluateWithin depth id).Along (Follows R) := by
  induction depth generalizing id with
  | zero => exact fun s => .refl course s
  | succ depth ih =>
    intro s
    have deps (r : ModuleRecord) :
        Action.Along (Follows R) (r.deps.forM fun dep => evaluateWithin depth dep.2) :=
      (follows_sequential course).forM fun dep => ih dep.2
    cases run : (evaluateWithin (depth + 1) id).run s
    cases evaluateWithin_result run with
    | missing | done | refused | early => exact .refl course s
    | @evaluated r exports t found status done ran =>
      have inner := deps r (s.modified id fun r =>
        { r with status := .evaluating, body := r.body.begun })
      rw [done] at inner
      exact .around course found (by simp [Status.Rests]) inner (evaluated r t exports status ran)
    | @wrongDeps r e t found status wrong | @wrongBody r e t found status wrong =>
      have inner := deps r (s.modified id fun r =>
        { r with status := .evaluating, body := r.body.begun })
      rw [wrong] at inner
      exact .around course found (by simp [Status.Rests]) inner (errored r e.message status)

theorem evaluateWithin_follows (course : Course R) (moves : ∀ r r', EvalMove r r' → R r r')
    (depth : Nat) (id : ModuleId) : (evaluateWithin depth id).Along (Follows R) :=
  evaluateWithin_follows_of_run course (fun r _ _ status _ => moves r _ (.evaluated status))
    (fun r _ status => moves r _ (.errored status)) depth id

theorem evaluateDeps_follows (course : Course R) (moves : ∀ r r', EvalMove r r' → R r r')
    (depth : Nat) (deps : List (String × ModuleId)) :
    Action.Along (Follows R) (deps.forM fun dep => evaluateWithin depth dep.2) :=
  (follows_sequential course).forM fun dep => evaluateWithin_follows course moves depth dep.2

theorem kept_of_evaluateDeps {depth : Nat} {r : ModuleRecord} {outcome : Except LoadError Unit}
    (found : s.modules[id]? = some r)
    (deps : (r.deps.forM fun dep => evaluateWithin depth dep.2).run
      (s.modified id fun r => { r with status := .evaluating, body := r.body.begun }) =
        (outcome, t)) :
    t.modules[id]? = some { r with status := .evaluating, body := r.body.begun } := by
  have course := ModuleRecord.evalMove_course
  have follows := evaluateDeps_follows course (fun _ _ h => h) depth r.deps
    (s.modified id fun r => { r with status := .evaluating, body := r.body.begun })
  rw [deps] at follows
  exact follows.busy course (getElem?_modified found _) (by simp [Status.Rests])

theorem evaluate_follows_of_within (course : Course R)
    (within : ∀ depth id, (evaluateWithin depth id).Along (Follows R)) (id : ModuleId) :
    (evaluate id).Along (Follows R) := by
  intro s
  rw [run_evaluate]
  have recorded : Follows R s { s with events := s.events ++ [.evaluate id] } :=
    .of_modules course rfl
  exact recorded.trans course (within _ id _)

theorem evaluate_follows (course : Course R) (moves : ∀ r r', EvalMove r r' → R r r')
    (id : ModuleId) : (evaluate id).Along (Follows R) :=
  evaluate_follows_of_within course (evaluateWithin_follows course moves) id

theorem ready_of_instantiate {b : Build} {source : Source} {cached : Option Bytes}
    {body : ModuleBody} {rejection : Option Blob.Rejection}
    (made : instantiate b source cached = .ok (body, rejection)) : body.Ready := by
  have compiled {body' : ModuleBody} (h : source.compile = .ok body') : body'.Ready := by
    cases source with
    | text text =>
      obtain ⟨script, _, rfl⟩ := map_eq_ok.1 h
      nofun
    | placeholder p =>
      cases h
      nofun
  rw [instantiate] at made
  split at made
  · cases made
    nofun
  · obtain ⟨_, h, same⟩ := map_eq_ok.1 made
    cases same
    exact compiled h
  · obtain ⟨_, h, same⟩ := map_eq_ok.1 made
    cases same
    exact compiled h

theorem add_follows (course : Course R) {r : ModuleRecord} (fresh : r.Fresh) :
    (add r).Along (Follows R) := fun s => follows_add course fresh s

theorem compile_follows (course : Course R) (b : Build) (source : String) :
    (compile b source).Along (Follows R) := by
  have step := follows_sequential course
  apply step.bind (step.record _)
  intro _
  cases b.compile source with
  | ok blob => exact step.pure blob
  | error e => exact step.throw _

theorem sourceModule_follows (course : Course R) (b : Build) (source : Source)
    (cached : Option Bytes) (context : Option String) :
    (sourceModule b source cached context).Along (Follows R) := by
  have step := follows_sequential course
  rw [sourceModule]
  cases made : instantiate b source cached with
  | error e => exact step.throw _
  | ok parts =>
    apply step.bind (add_follows course ⟨rfl, rfl, rfl, ready_of_instantiate made⟩)
    intro id
    apply step.bind (step.record _)
    intro _
    exact step.pure id

theorem syntheticModule_follows (course : Course R) (names : List String) (setup : Setup)
    (context : Option String) : (syntheticModule names setup context).Along (Follows R) := by
  have step := follows_sequential course
  have ready : (ModuleBody.synthetic names (some setup)).Ready := nofun
  apply step.bind (add_follows course ⟨rfl, rfl, rfl, ready⟩)
  intro id
  apply step.bind (step.record _)
  intro _
  exact step.pure id

theorem moduleAt_follows (course : Course R) (id : ModuleId) :
    (moduleAt id).Along (Follows R) := by
  intro s
  rw [run_moduleAt]
  cases s.modules[id]? <;> exact .refl course s

theorem namespaceOf_follows (course : Course R) (id : ModuleId) :
    (namespaceOf id).Along (Follows R) := by
  have step := follows_sequential course
  apply step.bind (moduleAt_follows course id)
  intro r
  split
  · exact step.pure _
  · exact step.throw _

theorem follows_making (course : Course R) : Making (Action.Along (Follows R)) := by
  constructor
  case toSequential => exact follows_sequential course
  case moduleAt => exact moduleAt_follows course
  case request => exact fun specifier s => .of_modules course rfl
  case compile => exact compile_follows course
  case sourceModule => exact sourceModule_follows course
  case syntheticModule => exact syntheticModule_follows course

/-- The operations of the engine change records by a relation that holds of what passes do. -/
theorem follows_stepwise_of_evaluate (course : Course R) (links : ∀ r r', LinkMove r r' → R r r')
    (evaluates : ∀ id, (evaluate id).Along (Follows R)) : Stepwise (Action.Along (Follows R)) := by
  constructor
  case toMaking => exact follows_making course
  case link => exact link_follows course links
  case evaluate => exact evaluates

theorem follows_stepwise (course : Course R) (links : ∀ r r', LinkMove r r' → R r r')
    (evaluates : ∀ r r', EvalMove r r' → R r r') : Stepwise (Action.Along (Follows R)) :=
  follows_stepwise_of_evaluate course links (evaluate_follows course evaluates)

theorem moves_stepwise : Stepwise (Action.Along (Follows Moves)) :=
  follows_stepwise ModuleRecord.moves_course (fun _ _ h => .single (.inl h))
    fun _ _ h => .single (.inr h)

def AtRest (s : State) : Prop :=
  ∀ (i : ModuleId) (r : ModuleRecord), s.modules[i]? = some r → r.status.Rests

end State

theorem ModuleRecord.Moves.rests {r r' : ModuleRecord} (h : r.Moves r') (rests : r.status.Rests) :
    r'.status.Rests := by
  induction h with
  | refl => exact rests
  | tail _ last ih =>
    rcases last with link | evaluation
    · cases link with
      | same => exact ih
      | linked => exact ⟨nofun, nofun⟩
    · cases evaluation with
      | same => exact ih
      | evaluated | errored => exact ⟨nofun, nofun⟩

theorem ModuleRecord.Fresh.rests {r : ModuleRecord} (h : r.Fresh) : r.status.Rests := by
  rw [h.status]
  exact ⟨nofun, nofun⟩

/-- What rests before passes rests after them. -/
theorem State.Follows.atRest {s t : State} (h : State.Follows ModuleRecord.Moves s t)
    (rest : s.AtRest) : t.AtRest :=
  h.invariant (fun _ => ModuleRecord.Fresh.rests) (fun _ _ => ModuleRecord.Moves.rests) rest

end CodeCache
