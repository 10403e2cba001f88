import CodeCache.Proofs.Lifecycle
import CodeCache.Proofs.Nesting

/-! # Whose blob is refused

Passes fail with errors of their own or with what finding an import fails with. When loading a blob
below a chain of importers fails with the refusal of a blob, it is therefore this blob or one that
is imported further down, which is on no path of the chain. -/

namespace CodeCache

inductive LoadError.OfPass : LoadError → Prop where
  | noModule (id : ModuleId) : OfPass (.noModule id)
  | notLinked : OfPass (.link .notLinked)
  | linkFailed (message : String) : OfPass (.link (.failedBefore message))
  | linkTooDeep : OfPass (.link .tooDeep)
  | evaluationFailed (message : String) : OfPass (.evaluation (.failedBefore message))
  | evaluationTooDeep : OfPass (.evaluation .tooDeep)
  | body {e : LoadError} (own : e.OfModule) : OfPass e

open LoadError (OfPass)

namespace Action

variable {α β : Type} {P Q : LoadError → Prop} {a : Action α} {f : α → Action β}

/-- From every state, whatever the computation fails with satisfies the predicate. -/
def FailsOnly (P : LoadError → Prop) (a : Action α) : Prop :=
  ∀ s, CodeCache.FailsOnly P (a.run s).1

theorem FailsOnly.pure (x : α) : FailsOnly P (pure x) := fun _ => .ok x

theorem FailsOnly.throw {e : LoadError} (h : P e) : FailsOnly P (throw e : Action α) :=
  fun _ => .error h

theorem FailsOnly.mono (h : a.FailsOnly P) (imp : ∀ e, P e → Q e) : a.FailsOnly Q :=
  fun s => (h s).mono imp

theorem FailsOnly.bind (ha : a.FailsOnly P) (hf : ∀ x, (f x).FailsOnly P) :
    FailsOnly P (a >>= f) := by
  intro s
  rw [run_bind]
  have first := ha s
  revert first
  rcases a.run s with ⟨e | x, t⟩
  · exact fun first => .error (first e rfl)
  · exact fun _ => hf x t

theorem FailsOnly.forM {xs : List α} {f : α → Action Unit} (h : ∀ x, (f x).FailsOnly P) :
    FailsOnly P (xs.forM f) := by
  induction xs with
  | nil => exact .pure ()
  | cons x xs ih => exact (h x).bind fun _ => ih

theorem FailsOnly.of_run {a : Action α} (h : a.FailsOnly P) {s t : State} {e : LoadError}
    (run : a.run s = (.error e, t)) : P e := h s e (congrArg Prod.fst run)

end Action

namespace State

variable {P : LoadError → Prop} {resolve : Resolver}

theorem record_fails (event : Event) : (record event).FailsOnly P := fun _ => .ok ()

theorem moduleAt_fails (own : ∀ e : LoadError, e.OfPass → P e) (id : ModuleId) :
    (moduleAt id).FailsOnly P := by
  intro s
  rw [run_moduleAt]
  cases s.modules[id]? with
  | none => exact .error (own _ (.noModule id))
  | some r => exact .ok r

theorem linkImports_fails {linkDep : ModuleId → Seen → Action Seen}
    (found : ∀ specifier referrer, (resolve specifier referrer).FailsOnly P)
    (linked : ∀ id seen, (linkDep id seen).FailsOnly P) (referrer : ModuleId)
    (specifiers : List String) (seen : Seen) :
    (linkImports resolve linkDep referrer specifiers seen).FailsOnly P := by
  induction specifiers generalizing seen with
  | nil => exact .pure _
  | cons specifier rest ih =>
    have once : (resolveOnce resolve referrer seen specifier).FailsOnly P := by
      rw [resolveOnce]
      cases Entries.get? seen specifier with
      | some id => exact .pure id
      | none => exact (record_fails _).bind fun _ => found specifier referrer
    refine once.bind fun dep => ?_
    refine (linked dep _).bind fun seen => ?_
    exact (ih seen).bind fun _ => .pure _

theorem linkWithin_fails (own : ∀ e : LoadError, e.OfPass → P e)
    (found : ∀ specifier referrer, (resolve specifier referrer).FailsOnly P) (depth : Nat)
    (id : ModuleId) (seen : Seen) : (linkWithin resolve depth id seen).FailsOnly P := by
  induction depth generalizing id seen with
  | zero => exact .throw (own _ .linkTooDeep)
  | succ depth ih =>
    intro s
    cases run : (linkWithin resolve (depth + 1) id seen).run s
    cases linkWithin_result run with
    | missing => exact .error (own _ (.noModule id))
    | done | linked => exact .ok _
    | refused => exact .error (own _ (.linkFailed _))
    | failed _ _ imports =>
      exact .error ((linkImports_fails found ih id _ seen).of_run imports)

theorem link_fails (own : ∀ e : LoadError, e.OfPass → P e)
    (found : ∀ specifier referrer, (resolve specifier referrer).FailsOnly P) (id : ModuleId) :
    (link resolve id).FailsOnly P := by
  intro s
  rw [run_link]
  have linked := (linkWithin_fails own found (s.modules.length + 2) id []).bind
    fun _ => .pure (P := P) ()
  exact linked _

theorem evaluateWithin_fails (own : ∀ e : LoadError, e.OfPass → P e) (depth : Nat)
    (id : ModuleId) : (evaluateWithin depth id).FailsOnly P := by
  induction depth generalizing id with
  | zero => exact .throw (own _ .evaluationTooDeep)
  | succ depth ih =>
    intro s
    cases run : (evaluateWithin (depth + 1) id).run s
    cases evaluateWithin_result run with
    | missing => exact .error (own _ (.noModule id))
    | done | evaluated => exact .ok _
    | refused => exact .error (own _ (.evaluationFailed _))
    | early => exact .error (own _ .notLinked)
    | @wrongDeps r _ _ _ _ deps =>
      have each : Action.FailsOnly P (r.deps.forM fun dep => evaluateWithin depth dep.2) :=
        .forM fun dep => ih dep.2
      exact .error (each.of_run deps)
    | wrongBody _ _ _ ran => exact .error (own _ (.body (runModule_fails _ _ _ ran)))

theorem evaluate_fails (own : ∀ e : LoadError, e.OfPass → P e) (id : ModuleId) :
    (evaluate id).FailsOnly P := by
  intro s
  rw [run_evaluate]
  exact evaluateWithin_fails own _ id _

end State

namespace Loader

variable {l : Loader} {P : LoadError → Prop}

theorem finish_fails {resolve : State.Resolver} (own : ∀ e : LoadError, e.OfPass → P e)
    (found : ∀ specifier referrer, (resolve specifier referrer).FailsOnly P) (id : ModuleId) :
    (finish resolve id).FailsOnly P := by
  refine (State.link_fails own found id).bind fun _ => ?_
  exact (State.evaluate_fails own id).bind fun _ => .pure id

theorem openBlob_fails (l : Loader) (origin : Option Path) (context : Option String)
    (blob : Bytes) :
    (l.openBlob origin context blob).FailsOnly fun e => l.decodeBlob origin blob = .error e := by
  intro s
  cases decoded : l.decodeBlob origin blob with
  | error e =>
    obtain ⟨t, opened, _⟩ := openBlob_of_error decoded context s
    rw [opened]
    exact .error rfl
  | ok script =>
    obtain ⟨t, opened, _⟩ := openBlob_of_ok decoded context s
    rw [opened]
    exact .ok _

theorem runBlob_fails {resolve : State.Resolver} {origin : Option Path} {blob : Bytes}
    (own : ∀ e : LoadError, e.OfPass → P e)
    (found : ∀ specifier referrer, (resolve specifier referrer).FailsOnly P)
    (opened : FailsOnly P (l.decodeBlob origin blob)) (context : Option String) :
    (l.runBlob resolve origin context blob).FailsOnly P := by
  refine ((l.openBlob_fails origin context blob).mono opened).bind fun id => ?_
  exact finish_fails own found id

theorem resolveImport_fails {runImport : Option String → Path → Action ModuleId}
    (own : ∀ e : LoadError, e.OfPass → P e)
    (loaded : ∀ context p, (runImport context p).FailsOnly P)
    (answered : ∀ specifier, FailsOnly P (l.packages.answer specifier)) (specifier : String)
    (referrer : ModuleId) : (l.resolveImport runImport specifier referrer).FailsOnly P := by
  refine (State.moduleAt_fails own referrer).bind fun r => ?_
  split
  · exact loaded _ _
  · refine Action.FailsOnly.bind (fun s => ?_) fun package s => ?_
    · rw [run_require]
      exact answered specifier
    · rw [run_syntheticModule]
      exact .ok _

theorem decodeBlob_refused {origin named : Option Path} {blob : Bytes}
    (refused : l.decodeBlob origin blob = .error (.cacheRejected named)) : named = origin := by
  rw [decodeBlob] at refused
  split at refused
  · cases refused
  split at refused
  · cases refused
  dsimp only at refused
  split at refused
  · cases refused
  split at refused
  · cases refused
  · cases refused
    rfl

/-- If the error is a refusal then it is the one of a blob at a path outside the chain, unless a
package was answered with it. -/
def Elsewhere (l : Loader) (chain : List Path) (e : LoadError) : Prop :=
  ∀ named, e = .cacheRejected named →
    (∃ p, named = some p ∧ chain.any (·.same p) = false) ∨
      ∃ specifier, l.packages.answer specifier = .error e

theorem elsewhere_of_ne {chain : List Path} {e : LoadError}
    (other : ∀ named, e ≠ .cacheRejected named) : l.Elsewhere chain e :=
  fun named same => absurd same (other named)

theorem Elsewhere.mono {chain : List Path} {p : Path} {e : LoadError}
    (h : l.Elsewhere (chain ++ [p]) e) : l.Elsewhere chain e := by
  intro named same
  rcases h named same with ⟨q, here, outside⟩ | answer
  · rw [List.any_append, Bool.or_eq_false_iff] at outside
    exact .inl ⟨q, here, outside.1⟩
  · exact .inr answer

theorem elsewhere_of_pass (chain : List Path) (e : LoadError) (own : e.OfPass) :
    l.Elsewhere chain e := by
  apply elsewhere_of_ne
  rintro named rfl
  cases own with
  | body own =>
    cases own with
    | body own => cases own

theorem elsewhere_of_answer (chain : List Path) (specifier : String) :
    FailsOnly (l.Elsewhere chain) (l.packages.answer specifier) :=
  fun _ answer _ _ => .inr ⟨specifier, answer⟩

theorem imports_fail {chain : List Path} {runImport : Option String → Path → Action ModuleId}
    (loaded : ∀ context p, (runImport context p).FailsOnly (l.Elsewhere chain))
    (specifier : String) (referrer : ModuleId) :
    (l.resolveImport runImport specifier referrer).FailsOnly (l.Elsewhere chain) :=
  resolveImport_fails (elsewhere_of_pass chain) loaded (elsewhere_of_answer chain) specifier
    referrer

theorem readBlob_fails (l : Loader) (chain : List Path) (p : Path) :
    (l.readBlob p).FailsOnly (l.Elsewhere chain) := by
  rw [readBlob]
  cases l.storage.read p with
  | ok content => exact .pure content
  | error e => exact .throw (elsewhere_of_ne (by simp))

theorem decodeBlob_elsewhere {chain : List Path} {p : Path} (fresh : chain.any (·.same p) = false)
    (blob : Bytes) : FailsOnly (l.Elsewhere chain) (l.decodeBlob (some p) blob) := by
  intro e refused named same
  subst same
  exact .inl ⟨p, decodeBlob_refused refused, fresh⟩

/-- By induction on the depth: a path of the chain is not loaded again, and what is loaded further
down is named outside a longer chain. -/
theorem runPathWithin_fails (l : Loader) (depth : Nat) (chain : List Path)
    (context : Option String) (p : Path) :
    (l.runPathWithin depth chain context p).FailsOnly (l.Elsewhere chain) := by
  induction depth generalizing chain context p with
  | zero => exact .throw (elsewhere_of_ne (by simp))
  | succ depth ih =>
    rw [runPathWithin_succ, loadPath]
    by_cases closed : chain.any (·.same p) = true
    · rw [if_pos closed]
      exact .throw (elsewhere_of_ne (by simp))
    · rw [if_neg closed]
      have nested (context : Option String) (q : Path) :
          (l.runPathWithin depth (chain ++ [p]) context q).FailsOnly (l.Elsewhere chain) :=
        (ih (chain ++ [p]) context q).mono fun _ => Elsewhere.mono
      refine (l.readBlob_fails chain p).bind fun blob => ?_
      exact runBlob_fails (elsewhere_of_pass chain) (imports_fail nested)
        (decodeBlob_elsewhere (Bool.eq_false_iff.2 closed) blob) context

/-- Once a blob has been opened, what the run of its module fails with is no refusal of it. -/
theorem finish_elsewhere (l : Loader) (depth : Nat) (chain : List Path) (id : ModuleId) :
    (finish (l.resolveImport (l.runPathWithin depth chain)) id).FailsOnly (l.Elsewhere chain) :=
  finish_fails (elsewhere_of_pass chain) (imports_fail (l.runPathWithin_fails depth chain)) id

end Loader

end CodeCache
