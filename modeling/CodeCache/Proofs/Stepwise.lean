import CodeCache.Loader
import CodeCache.Proofs.Computation

/-! # Properties of runs, step by step

A property of computations that holds of the operations of the engine and is kept by sequences holds
of every run of a loader. The operations have it if the elementary changes have it that they consist
of. What no change does to the records that exist, no run does. What the engine does is also
independent of the calls recorded before. -/

namespace CodeCache

namespace State

/-- What a module body comes to does not depend on the calls made to the engine. -/
theorem runModule_events (s : State) (events : List Event) (r : ModuleRecord) :
    runModule { s with events } r = runModule s r := by
  have exports : exportsOf { s with events } r.deps = exportsOf s r.deps := by
    funext specifier
    simp only [exportsOf, run_namespaceOf]
  cases body : r.body with
  | source script =>
    simp only [runModule, body, exports]
    rfl
  | placeholder p => simp only [runModule, body]
  | synthetic names setup => simp only [runModule, body]

inductive Change : (ModuleRecord → ModuleRecord) → Prop where
  | status (status : Status) : Change ({ · with status })
  | linked (deps : List (String × ModuleId)) : Change ({ · with deps, status := .linked })
  | begun : Change fun r => { r with status := .evaluating, body := r.body.begun }
  | evaluated (exports : Fields) : Change ({ · with exports, status := .evaluated })

end State

structure Sequential (P : ∀ {α : Type}, Action α → Prop) : Prop where
  pure : ∀ {α : Type} (x : α), P (pure x : Action α)
  throw : ∀ {α : Type} (e : LoadError), P (throw e : Action α)
  bind : ∀ {α β : Type} {a : Action α} {f : α → Action β}, P a → (∀ x, P (f x)) → P (a >>= f)
  record : ∀ event, P (State.record event)

structure Parallel (P : ∀ {α : Type}, Action α → Action α → Prop) : Prop where
  pure : ∀ {α : Type} (x : α), P (pure x : Action α) (pure x)
  throw : ∀ {α : Type} (e : LoadError), P (throw e : Action α) (throw e)
  bind : ∀ {α β : Type} {a b : Action α} {f g : α → Action β},
    P a b → (∀ x, P (f x) (g x)) → P (a >>= f) (b >>= g)
  record : ∀ event, P (State.record event) (State.record event)

structure Making (P : ∀ {α : Type}, Action α → Prop) : Prop extends Sequential P where
  moduleAt : ∀ id, P (State.moduleAt id)
  request : ∀ specifier,
    P (modify fun s => { s with requests := s.requests ++ [specifier] } : Action Unit)
  compile : ∀ b source, P (State.compile b source)
  sourceModule : ∀ b source cached context, P (State.sourceModule b source cached context)
  syntheticModule : ∀ names setup context, P (State.syntheticModule names setup context)

structure Stepwise (P : ∀ {α : Type}, Action α → Prop) : Prop extends Making P where
  link : ∀ {resolve : State.Resolver}, (∀ specifier referrer, P (resolve specifier referrer)) →
    ∀ id, P (State.link resolve id)
  evaluate : ∀ id, P (State.evaluate id)

/-- A property of computations that holds of the elementary changes and is kept by sequences and
handlers. Reading the state is one of them only as far as the calls recorded in it do not matter. -/
structure Elementary (P : ∀ {α : Type}, Action α → Prop) : Prop extends Sequential P where
  tryCatch : ∀ {α : Type} {a : Action α} {h : LoadError → Action α},
    P a → (∀ e, P (h e)) → P (tryCatch a h)
  read : ∀ {α β : Type} (view : State → α) {f : α → Action β},
    (∀ s events, view { s with events } = view s) → (∀ x, P (f x)) →
    P (get >>= fun s => f (view s))
  request : ∀ specifier,
    P (modify fun s => { s with requests := s.requests ++ [specifier] } : Action Unit)
  add : ∀ body context rejection, P (State.add { body, context, rejection })
  change : ∀ id {f}, State.Change f → P (State.update id f)

namespace Parallel

open State

variable {P : ∀ {α : Type}, Action α → Action α → Prop} (step : Parallel P)

include step

theorem forM {xs : List α} {f g : α → Action Unit} (h : ∀ x, P (f x) (g x)) :
    P (xs.forM f) (xs.forM g) := by
  induction xs with
  | nil => exact step.pure ()
  | cons x xs ih =>
    apply step.bind (h x)
    intro _
    exact ih

theorem linkImports {resolve other : Resolver} {linkDep linkOther : ModuleId → Seen → Action Seen}
    (hr : ∀ specifier referrer, P (resolve specifier referrer) (other specifier referrer))
    (hl : ∀ id seen, P (linkDep id seen) (linkOther id seen))
    (referrer : ModuleId) (specifiers : List String) (seen : Seen) :
    P (linkImports resolve linkDep referrer specifiers seen)
      (State.linkImports other linkOther referrer specifiers seen) := by
  induction specifiers generalizing seen with
  | nil => exact step.pure _
  | cons specifier rest ih =>
    have once : P (resolveOnce resolve referrer seen specifier)
        (resolveOnce other referrer seen specifier) := by
      unfold resolveOnce
      cases Entries.get? seen specifier with
      | none =>
        apply step.bind (step.record _)
        intro _
        exact hr specifier referrer
      | some id => exact step.pure id
    apply step.bind once
    intro dep
    apply step.bind (hl dep _)
    intro seen
    apply step.bind (ih seen)
    intro found
    exact step.pure _

end Parallel

namespace Sequential

open State

variable {P : ∀ {α : Type}, Action α → Prop} (step : Sequential P)

include step

theorem parallel : Parallel fun a _ => P a where
  pure := step.pure
  throw := step.throw
  bind ha hf := step.bind ha hf
  record := step.record

theorem forM {xs : List α} {f : α → Action Unit} (h : ∀ x, P (f x)) : P (xs.forM f) :=
  step.parallel.forM (g := f) h

theorem linkImports {resolve : Resolver} {linkDep : ModuleId → Seen → Action Seen}
    (hr : ∀ specifier referrer, P (resolve specifier referrer))
    (hl : ∀ id seen, P (linkDep id seen))
    (referrer : ModuleId) (specifiers : List String) (seen : Seen) :
    P (linkImports resolve linkDep referrer specifiers seen) := by
  have linked := @Parallel.linkImports _ step.parallel resolve resolve linkDep linkDep
  exact linked hr hl referrer specifiers seen

end Sequential

namespace Elementary

open State

variable {P : ∀ {α : Type}, Action α → Prop} (step : Elementary P)

include step

theorem moduleAt (id : ModuleId) : P (moduleAt id) := by
  have shape : State.moduleAt id = get >>= fun s =>
      s.modules[id]?.elim (MonadExcept.throw (.noModule id)) Pure.pure := by
    refine bind_congr fun s => ?_
    cases s.modules[id]? <;> rfl
  rw [shape]
  refine step.read (·.modules[id]?) (fun _ _ => rfl)
    (f := fun found => found.elim (MonadExcept.throw (.noModule id)) Pure.pure) fun found => ?_
  cases found with
  | none => exact step.throw _
  | some r => exact step.pure r

theorem linkWithin {resolve : Resolver} (hr : ∀ specifier referrer, P (resolve specifier referrer))
    (depth : Nat) (id : ModuleId) (seen : Seen) : P (linkWithin resolve depth id seen) := by
  induction depth generalizing id seen with
  | zero => exact step.throw _
  | succ depth ih =>
    apply step.bind (step.moduleAt id)
    intro r
    split
    · apply step.bind (step.change id (.status _))
      intro _
      apply step.tryCatch
      · apply step.bind (step.linkImports hr ih id _ seen)
        intro found
        apply step.bind (step.change id (.linked _))
        intro _
        exact step.pure _
      · intro e
        apply step.bind (step.change id (.status _))
        intro _
        exact step.throw e
    · exact step.throw _
    · exact step.pure seen

theorem link {resolve : Resolver} (hr : ∀ specifier referrer, P (resolve specifier referrer))
    (id : ModuleId) : P (link resolve id) := by
  refine step.bind (step.record _) fun _ => ?_
  refine step.read (·.modules.length) (fun _ _ => rfl) (f := fun size => do
    let _ ← State.linkWithin resolve (size + 2) id []) fun size => ?_
  exact step.bind (step.linkWithin hr _ id []) fun _ => step.pure ()

theorem evaluateWithin (depth : Nat) (id : ModuleId) : P (evaluateWithin depth id) := by
  induction depth generalizing id with
  | zero => exact step.throw _
  | succ depth ih =>
    apply step.bind (step.moduleAt id)
    intro r
    split
    · apply step.bind (step.change id .begun)
      intro _
      refine step.tryCatch ?_ fun e => ?_
      · have deps : P (r.deps.forM fun dep => State.evaluateWithin depth dep.2) := by
          apply step.forM
          intro dep
          exact ih dep.2
        apply step.bind deps
        intro _
        refine step.read (runModule · r) (fun s events => runModule_events s events r)
          (f := fun ran => do
            let exports ← evaluateWithin.liftExcept ran
            update id ({ · with exports, status := .evaluated })) fun ran => ?_
        refine step.bind ?_ fun exports => step.change id (.evaluated exports)
        cases ran with
        | ok exports => exact step.pure exports
        | error e => exact step.throw e
      · apply step.bind (step.change id (.status _))
        intro _
        exact step.throw e
    · exact step.pure ()
    · exact step.pure ()
    · exact step.throw _
    · exact step.throw _
    · exact step.throw _

theorem evaluate (id : ModuleId) : P (evaluate id) := by
  refine step.bind (step.record _) fun _ => ?_
  exact step.read (·.modules.length) (fun _ _ => rfl) fun size => step.evaluateWithin _ id

theorem compile (b : Build) (source : String) : P (State.compile b source) := by
  apply step.bind (step.record _)
  intro _
  cases b.compile source with
  | ok blob => exact step.pure blob
  | error e => exact step.throw _

theorem sourceModule (b : Build) (source : Source) (cached : Option Bytes)
    (context : Option String) : P (sourceModule b source cached context) := by
  rw [State.sourceModule]
  cases instantiate b source cached with
  | error e => exact step.throw _
  | ok made =>
    apply step.bind (step.add _ _ _)
    intro id
    apply step.bind (step.record _)
    intro _
    exact step.pure id

theorem syntheticModule (names : List String) (setup : Setup) (context : Option String) :
    P (syntheticModule names setup context) := by
  apply step.bind (step.add _ _ _)
  intro id
  apply step.bind (step.record _)
  intro _
  exact step.pure id

theorem stepwise : Stepwise P where
  toSequential := step.toSequential
  moduleAt := step.moduleAt
  request := step.request
  compile := step.compile
  sourceModule := step.sourceModule
  syntheticModule := step.syntheticModule
  link := step.link
  evaluate := step.evaluate

end Elementary

namespace Making

open State

variable {P : ∀ {α : Type}, Action α → Prop} (step : Making P)

include step

theorem require (known : Packages) (specifier : String) : P (Package.require known specifier) := by
  apply step.bind (step.request specifier)
  intro _
  cases known.answer specifier with
  | ok package => exact step.pure package
  | error e => exact step.throw e

variable (l : Loader)

theorem patch (blob : Bytes) : P (l.patch blob) := by
  rw [Loader.patch]
  cases Version.parse? l.build.version with
  | none => exact step.throw _
  | some v =>
    apply step.bind (step.compile _ _)
    intro reference
    exact step.pure _

theorem placeholderFor (blob : Bytes) : P (Loader.placeholderFor blob) := by
  rw [Loader.placeholderFor]
  cases Placeholder.ofBlob blob with
  | ok p => exact step.pure p
  | error e => exact step.throw _

theorem openPatched (origin : Option Path) (context : Option String) (blob : Bytes) :
    P (l.openPatched origin context blob) := by
  apply step.bind (step.placeholderFor _)
  intro p
  apply step.bind (step.sourceModule _ _ _ _)
  intro id
  apply step.bind (step.moduleAt id)
  intro r
  split
  · apply step.bind (step.throw _)
    intro _
    exact step.pure id
  · exact step.pure id

theorem openBlob (origin : Option Path) (context : Option String) (blob : Bytes) :
    P (l.openBlob origin context blob) := by
  apply step.bind (step.patch l blob)
  intro patched
  exact step.openPatched l origin context _

theorem readBlob (p : Path) : P (l.readBlob p) := by
  rw [Loader.readBlob]
  cases l.storage.read p with
  | ok content => exact step.pure content
  | error e => exact step.throw _

end Making

namespace Stepwise

open State

variable {P : ∀ {α : Type}, Action α → Prop} (step : Stepwise P)

include step

variable (l : Loader)

theorem finish {resolve : Resolver} (hr : ∀ specifier referrer, P (resolve specifier referrer))
    (id : ModuleId) : P (Loader.finish resolve id) := by
  apply step.bind (step.link hr id)
  intro _
  apply step.bind (step.evaluate id)
  intro _
  exact step.pure id

theorem runBlob {resolve : Resolver} (hr : ∀ specifier referrer, P (resolve specifier referrer))
    (origin : Option Path) (context : Option String) (blob : Bytes) :
    P (l.runBlob resolve origin context blob) := by
  apply step.bind (step.openBlob l origin context blob)
  intro id
  exact step.finish hr id

theorem resolveImport {runImport : Option String → Path → Action ModuleId}
    (hr : ∀ context p, P (runImport context p)) (specifier : String) (referrer : ModuleId) :
    P (l.resolveImport runImport specifier referrer) := by
  apply step.bind (step.moduleAt referrer)
  intro r
  split
  · exact hr _ _
  · apply step.bind (step.require _ _)
    intro package
    exact step.syntheticModule _ _ _

theorem runPathWithin (depth : Nat) (importers : List Path) (context : Option String) (p : Path) :
    P (l.runPathWithin depth importers context p) := by
  induction depth generalizing importers context p with
  | zero => exact step.throw _
  | succ depth ih =>
    have opened : P (l.readBlob p >>= fun blob =>
        l.runBlob (l.resolveImport (l.runPathWithin depth (importers ++ [p]))) (some p) context
          blob) := by
      apply step.bind (step.readBlob l p)
      intro blob
      exact step.runBlob l (step.resolveImport l (ih _)) _ _ blob
    rw [Loader.runPathWithin]
    split
    · exact step.bind (step.throw _) fun _ => opened
    · exact opened

theorem resolveBlob (specifier : String) (referrer : ModuleId) :
    P (l.resolveImport l.runPath specifier referrer) :=
  step.resolveImport l (fun context p => step.runPathWithin l _ [] context p) specifier referrer

end Stepwise

namespace Action

variable {α β : Type} {R : State → State → Prop}

/-- Every run leads from a state to a related one. -/
def Along (R : State → State → Prop) (a : Action α) : Prop := ∀ s, R s (a.run s).2

theorem Along.bind (trans : ∀ {s t u}, R s t → R t u → R s u) {a : Action α} {f : α → Action β}
    (ha : a.Along R) (hf : ∀ x, (f x).Along R) : (a >>= f).Along R := by
  intro s
  rw [run_bind]
  have first := ha s
  revert first
  rcases a.run s with ⟨_ | x, t⟩
  · exact id
  · exact fun first => trans first (hf x t)

theorem Along.tryCatch (trans : ∀ {s t u}, R s t → R t u → R s u) {a : Action α}
    {h : LoadError → Action α} (ha : a.Along R) (hh : ∀ e, (h e).Along R) :
    (MonadExcept.tryCatch a h).Along R := by
  intro s
  rw [run_tryCatch]
  have first := ha s
  revert first
  rcases a.run s with ⟨e | x, t⟩
  · exact fun first => trans first (hh e t)
  · exact id

end Action

theorem Sequential.ofRelation {R : State → State → Prop} (refl : ∀ s, R s s)
    (trans : ∀ {s t u}, R s t → R t u → R s u) (record : ∀ s events, R s { s with events }) :
    Sequential (Action.Along R) := by
  constructor
  case pure => exact fun _ s => refl s
  case throw => exact fun _ s => refl s
  case bind => exact fun ha hf => Action.Along.bind (R := R) trans ha hf
  case record => exact fun event s => record s _

theorem Elementary.ofRelation {R : State → State → Prop} (refl : ∀ s, R s s)
    (trans : ∀ {s t u}, R s t → R t u → R s u) (record : ∀ s events, R s { s with events })
    (request : ∀ s requests, R s { s with requests })
    (add : ∀ s r, R s { s with modules := s.modules ++ [r] })
    (change : ∀ s id f, State.Change f → R s { s with modules := s.modules.modify id f }) :
    Elementary (Action.Along R) := by
  constructor
  case toSequential => exact .ofRelation refl trans record
  case tryCatch => exact fun ha hh => Action.Along.tryCatch (R := R) trans ha hh
  case read => exact fun view f _ hf s => hf (view s) s
  case request => exact fun specifier s => request s _
  case add => exact fun body context rejection s => add s _
  case change => exact fun id f hf s => change s id f hf

namespace State

/-- Every record keeps its context, its rejection and, up to a begun setup, its body. -/
def Retains (s t : State) : Prop :=
  ∀ (i : ModuleId) (r : ModuleRecord), s.modules[i]? = some r →
    ∃ r' : ModuleRecord, t.modules[i]? = some r' ∧ r'.context = r.context ∧
      r'.rejection = r.rejection ∧ (r'.body = r.body ∨ r'.body = r.body.begun)

theorem begun_begun (body : ModuleBody) : body.begun.begun = body.begun := by
  cases body <;> rfl

theorem Retains.refl (s : State) : Retains s s := by
  intro i r found
  exact ⟨r, found, rfl, rfl, .inl rfl⟩

theorem Retains.trans {s t u : State} (h : Retains s t) (k : Retains t u) : Retains s u := by
  intro i r found
  obtain ⟨r', found', context, rejection, body⟩ := h i r found
  obtain ⟨r'', found'', context', rejection', body'⟩ := k i r' found'
  refine ⟨r'', found'', context'.trans context, rejection'.trans rejection, ?_⟩
  rcases body with body | body
  · rwa [body] at body'
  · rw [body, begun_begun, or_self] at body'
    exact .inr body'

theorem Change.retains {f : ModuleRecord → ModuleRecord} (h : Change f) (r : ModuleRecord) :
    (f r).context = r.context ∧ (f r).rejection = r.rejection ∧
      ((f r).body = r.body ∨ (f r).body = r.body.begun) := by
  cases h with
  | begun => exact ⟨rfl, rfl, .inr rfl⟩
  | _ => exact ⟨rfl, rfl, .inl rfl⟩

theorem retains_elementary : Elementary fun a => ∀ s, Retains s (a.run s).2 := by
  refine Elementary.ofRelation Retains.refl Retains.trans (fun s _ => Retains.refl s)
    (fun s _ => Retains.refl s) ?_ ?_
  · intro s r i old found
    have low : i < s.modules.length := (List.getElem?_eq_some_iff.1 found).1
    exact ⟨old, by rw [List.getElem?_append_left low, found], rfl, rfl, .inl rfl⟩
  · intro s id f hf i old found
    by_cases here : id = i
    · exact ⟨f old, by simp [found, here], hf.retains old⟩
    · exact ⟨old, by simp [found, here], rfl, rfl, .inl rfl⟩

theorem retains_stepwise : Stepwise fun a => ∀ s, Retains s (a.run s).2 :=
  retains_elementary.stepwise

theorem contexts_stepwise : Stepwise fun a => ∀ s : State, (a.run s).2.contexts = s.contexts :=
  (Elementary.ofRelation (R := fun s t => t.contexts = s.contexts) (fun _ => rfl)
    (fun h k => k.trans h) (fun _ _ => rfl) (fun _ _ => rfl) (fun _ _ => rfl)
    fun _ _ _ _ => rfl).stepwise

end State

namespace Action

variable {α β : Type}

/-- From states that agree but for the recorded calls, two computations come to the same outcome and
to states that agree but for the recorded calls. -/
def Alike (a b : Action α) : Prop :=
  ∀ s events, ∃ later,
    b.run { s with events } = ((a.run s).1, { (a.run s).2 with events := later })

theorem Alike.outcome {a b : Action α} (h : a.Alike b) (s : State) :
    (b.run s).1 = (a.run s).1 := by
  obtain ⟨later, same⟩ := h s s.events
  show (b.run { s with events := s.events }).1 = _
  rw [same]

theorem Alike.bind {a b : Action α} {f g : α → Action β} (first : a.Alike b)
    (next : ∀ x, (f x).Alike (g x)) : (a >>= f).Alike (b >>= g) := by
  intro s events
  obtain ⟨between, same⟩ := first s events
  rw [run_bind, run_bind, same]
  rcases a.run s with ⟨_ | x, t⟩
  · exact ⟨between, rfl⟩
  · exact next x t between

theorem Alike.tryCatch {a b : Action α} {h k : LoadError → Action α} (body : a.Alike b)
    (handler : ∀ e, (h e).Alike (k e)) :
    (MonadExcept.tryCatch a h).Alike (MonadExcept.tryCatch b k) := by
  intro s events
  obtain ⟨between, same⟩ := body s events
  rw [run_tryCatch, run_tryCatch, same]
  rcases a.run s with ⟨e | x, t⟩
  · exact handler e t between
  · exact ⟨between, rfl⟩

/-- The outcome and the state afterwards do not depend on the calls recorded before, except that
these stay recorded. -/
def Blind (a : Action α) : Prop :=
  ∀ s events, ∃ later, a.run { s with events } = ((a.run s).1, { (a.run s).2 with events := later })

theorem Alike.of_blind {a : Action α} (h : a.Blind) : a.Alike a := h

end Action

theorem alike_parallel : Parallel Action.Alike := by
  constructor
  case pure => exact fun _ _ events => ⟨events, rfl⟩
  case throw => exact fun _ _ events => ⟨events, rfl⟩
  case bind => exact fun ha hf => ha.bind hf
  case record => exact fun event _ events => ⟨events ++ [event], rfl⟩

theorem blind_sequential : Sequential Action.Blind where
  pure := alike_parallel.pure
  throw := alike_parallel.throw
  bind := alike_parallel.bind
  record := alike_parallel.record

theorem blind_elementary : Elementary Action.Blind := by
  constructor
  case toSequential => exact blind_sequential
  case tryCatch => exact fun ha hh => Action.Alike.tryCatch ha hh
  case read =>
    intro α β view f same hf s events
    have next := hf (view s) s events
    rw [Action.run_bind, Action.run_bind]
    show ∃ later, (f (view { s with events })).run _ = _
    rw [same]
    exact next
  case request => exact fun _ _ events => ⟨events, rfl⟩
  case add => exact fun _ _ _ _ events => ⟨events, rfl⟩
  case change => exact fun _ _ _ _ events => ⟨events, rfl⟩

theorem blind_stepwise : Stepwise Action.Blind := blind_elementary.stepwise

end CodeCache
