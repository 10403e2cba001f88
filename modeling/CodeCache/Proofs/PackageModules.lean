import CodeCache.Proofs.FailedRuns

/-! # Modules of packages

The module that is made for a package promises its exports: the whole value under `default`, and
then the other named entries in their order. Operations of the engine and loads of blobs keep what
modules promise, so that the module can be linked and evaluated at any later time, and from then on
everything that imports it sees these exports. -/

namespace CodeCache

open Relation (ReflTransGen)
open ModuleRecord (Course LinkMove EvalMove Moves)

namespace ModuleRecord

variable {r r' r'' : ModuleRecord} {exports : Fields}

/-- The module has these exports, or it is a synthetic module that imports nothing and will have
them once it has been evaluated. -/
def Promises (r : ModuleRecord) (exports : Fields) : Prop :=
  r.Offers .unlinked exports ∨ r.Offers .linked exports

structure Upholds (r r' : ModuleRecord) : Prop where
  moves : r.Moves r'
  promises : ∀ exports, r.Promises exports → r'.Promises exports
  offers : ∀ exports, r.Offers .linked exports → r'.Offers .linked exports

theorem upholds_course : Course Upholds := by
  constructor
  · exact fun _ => ⟨.refl, fun _ h => h, fun _ h => h⟩
  · intro r r' r'' h k
    exact ⟨h.moves.trans k.moves, fun e p => k.promises e (h.promises e p),
      fun e o => k.offers e (h.offers e o)⟩
  · exact fun h busy => moves_course.busy h.moves busy

/-- A record that has still to be evaluated and offers exports is the one of a synthetic module. -/
theorem Offers.pending {status pending : Status} (h : r.Offers pending exports)
    (here : r.status = status) (early : status ≠ .evaluated) :
    status = pending ∧ r.deps = [] ∧
      ∃ names setup, r.body = .synthetic names setup ∧ Setup.run names setup = .ok exports := by
  rcases h with ⟨evaluated, _⟩ | ⟨waiting, rest⟩
  · exact absurd (here.symm.trans evaluated) early
  · exact ⟨here.symm.trans waiting, rest⟩

theorem LinkMove.upholds (h : r.LinkMove r') : r.Upholds r' := by
  refine ⟨.single (.inl h), ?_, ?_⟩
  · intro exports promised
    cases h with
    | same => exact promised
    | @linked deps status named =>
      rcases promised with offers | offers
      · obtain ⟨_, _, names, setup, body, ran⟩ := offers.pending status nofun
        rw [body] at named
        exact .inr (.inr ⟨rfl, List.map_eq_nil_iff.1 named, names, setup, body, ran⟩)
      · cases (offers.pending status nofun).1
  · intro exports offers
    cases h with
    | same => exact offers
    | linked status => cases (offers.pending status nofun).1

theorem upholds_of_evaluated (status : r.status = .linked)
    (kept : ∀ promised, r.Offers .linked promised → promised = exports) :
    r.Upholds { r with body := r.body.begun, exports, status := .evaluated } := by
  have evaluated {promised : Fields} (offers : r.Offers .linked promised) :
      ModuleRecord.Exports { r with body := r.body.begun, exports, status := .evaluated }
        promised := ⟨rfl, (kept promised offers).symm⟩
  refine ⟨.single (.inr (.evaluated status)), ?_, fun _ offers => .inl (evaluated offers)⟩
  rintro promised (offers | offers)
  · cases (offers.pending status nofun).1
  · exact .inr (.inl (evaluated offers))

theorem upholds_of_errored {message : String} (status : r.status = .linked)
    (none : ∀ promised, ¬r.Offers .linked promised) :
    r.Upholds { r with body := r.body.begun, status := .errored message } := by
  refine ⟨.single (.inr (.errored status)), ?_, fun _ offers => absurd offers (none _)⟩
  rintro promised (offers | offers)
  · cases (offers.pending status nofun).1
  · exact absurd offers (none promised)

end ModuleRecord

namespace State

open ModuleRecord (Upholds upholds_course upholds_of_evaluated upholds_of_errored)

variable {s t u : State} {id : ModuleId} {r : ModuleRecord} {exports promised : Fields}

/-- A synthetic module has nothing to evaluate before it, and its setup is all there is to run. -/
theorem evaluate_of_offers {depth : Nat} {outcome : Except LoadError Unit}
    (status : r.status = .linked) (offers : r.Offers .linked promised)
    (deps : (r.deps.forM fun dep => evaluateWithin depth dep.2).run s = (outcome, t)) :
    outcome = .ok () ∧ runModule t r = .ok promised := by
  obtain ⟨_, nothing, names, setup, body, ran⟩ := offers.pending status nofun
  rw [nothing] at deps
  cases deps
  exact ⟨rfl, by rw [runModule, body]; exact ran⟩

/-- By induction on the depth. The mark keeps the evaluation of the dependencies off the record. -/
theorem evaluateWithin_upholds (depth : Nat) (id : ModuleId) :
    (evaluateWithin depth id).Along (Follows Upholds) := by
  induction depth generalizing id with
  | zero => exact fun s => .refl upholds_course s
  | succ depth ih =>
    intro s
    have deps (r : ModuleRecord) :
        Action.Along (Follows Upholds) (r.deps.forM fun dep => evaluateWithin depth dep.2) :=
      (follows_sequential upholds_course).forM fun dep => ih dep.2
    cases run : (evaluateWithin (depth + 1) id).run s
    cases evaluateWithin_result run with
    | missing | done | refused | early => exact .refl upholds_course s
    | @evaluated r exports t found status evaluated ran =>
      have inner := deps r (s.modified id fun r =>
        { r with status := .evaluating, body := r.body.begun })
      have kept (promised : Fields) (offers : r.Offers .linked promised) : promised = exports := by
        obtain ⟨_, ran'⟩ := evaluate_of_offers status offers evaluated
        cases ran'.symm.trans ran
        rfl
      rw [evaluated] at inner
      exact .around upholds_course found (by simp [Status.Rests]) inner
        (upholds_of_evaluated status kept)
    | @wrongDeps r e t found status wrong =>
      have inner := deps r (s.modified id fun r =>
        { r with status := .evaluating, body := r.body.begun })
      have none (promised : Fields) (offers : r.Offers .linked promised) : False := by
        cases (evaluate_of_offers status offers wrong).1
      rw [wrong] at inner
      exact .around upholds_course found (by simp [Status.Rests]) inner
        (upholds_of_errored status none)
    | @wrongBody r e t found status evaluated ran =>
      have inner := deps r (s.modified id fun r =>
        { r with status := .evaluating, body := r.body.begun })
      have none (promised : Fields) (offers : r.Offers .linked promised) : False := by
        cases ran.symm.trans (evaluate_of_offers status offers evaluated).2
      rw [evaluated] at inner
      exact .around upholds_course found (by simp [Status.Rests]) inner
        (upholds_of_errored status none)

theorem evaluate_upholds (id : ModuleId) : (evaluate id).Along (Follows Upholds) :=
  evaluate_follows_of_within upholds_course evaluateWithin_upholds id

inductive Step (s : State) : State → Prop where
  | operation (op : Operation) : Step s (op.next s)
  | resolve (l : Loader) (load : Load) (specifier : String) (referrer : ModuleId) :
      Step s ((load.imports l specifier referrer).run s).2
  | link (l : Loader) (load : Load) (id : ModuleId) : Step s ((link (load.imports l) id).run s).2
  | load (l : Loader) (context : Option String) (load : Load) :
      Step s ((load.run l context).run s).2

def Reaches : State → State → Prop := ReflTransGen Step

theorem reaches_after (s : State) (ops : List Operation) : s.Reaches (s.after ops) :=
  after_induction (I := s.Reaches) .refl (fun _ op reached => reached.tail (.operation op)) ops

section

variable {R : ModuleRecord → ModuleRecord → Prop}

theorem Step.follows (h : Step s t) (course : Course R) (links : ∀ r r', LinkMove r r' → R r r')
    (evaluates : ∀ id, (evaluate id).Along (Follows R)) : Follows R s t := by
  have stepwise := follows_stepwise_of_evaluate course links evaluates
  have imports := Load.imports_stepwise stepwise
  cases h with
  | operation op =>
    cases op with
    | evaluate id => exact evaluates id s
    | link answers id => exact (next_follows s (.link answers id)).mono links
    | _ =>
      refine (next_follows s _).mono fun r r' same => ?_
      cases same
      exact course.refl r
  | resolve l load specifier referrer => exact imports l load specifier referrer s
  | link l load id => exact stepwise.link (imports l load) id s
  | load l context load => exact load.run_stepwise stepwise l context s

theorem Reaches.follows (h : Reaches s t) (course : Course R)
    (links : ∀ r r', LinkMove r r' → R r r') (evaluates : ∀ id, (evaluate id).Along (Follows R)) :
    Follows R s t := by
  induction h with
  | refl => exact .refl course s
  | tail _ step ih => exact ih.trans course (step.follows course links evaluates)

end

theorem Reaches.upholds (h : Reaches s t) : Follows Upholds s t :=
  h.follows upholds_course (fun _ _ => ModuleRecord.LinkMove.upholds) evaluate_upholds

theorem linkWithin_of_promises (resolve : Resolver) (depth : Nat) (seen : Seen)
    (found : s.modules[id]? = some r) (promises : r.Promises exports) :
    ∃ t r', (linkWithin resolve (depth + 1) id seen).run s = (.ok seen, t) ∧
      t.modules[id]? = some r' ∧ r'.Offers .linked exports := by
  rcases promises with offers | offers
  · obtain ⟨t, r', run, _, found', offers'⟩ :=
      run_linkWithin_of_offers resolve depth seen found offers
    exact ⟨t, r', run, found', offers'⟩
  · have done : r.status = .linked ∨ r.status = .evaluated := by
      rcases offers with evaluated | ⟨linked, _⟩
      · exact .inr evaluated.1
      · exact .inl linked
    exact ⟨s, r, run_linkWithin_of_linked resolve depth seen found done, found, offers⟩

theorem link_of_promises (resolve : Resolver) (found : s.modules[id]? = some r)
    (promises : r.Promises exports) :
    ∃ t r', (link resolve id).run s = (.ok (), t) ∧ t.modules[id]? = some r' ∧
      r'.Offers .linked exports := by
  obtain ⟨t, r', run, found', offers⟩ := linkWithin_of_promises
    (s := { s with events := s.events ++ [.link id] }) resolve (s.modules.length + 1) [] found
    promises
  exact ⟨t, r', (run_link resolve id s).trans (Action.run_bind_ok run), found', offers⟩

theorem evaluate_of_linked (found : s.modules[id]? = some r) (offers : r.Offers .linked exports) :
    ∃ t r', (evaluate id).run s = (.ok (), t) ∧ t.modules[id]? = some r' ∧ r'.Exports exports := by
  obtain ⟨t, r', run, _, _, found', exported⟩ := run_evaluateWithin_of_offers
    (s := { s with events := s.events ++ [.evaluate id] }) s.modules.length found offers
  exact ⟨t, r', (run_evaluate id s).trans run, found', exported⟩

theorem Reaches.evaluated (h : Reaches s t) (found : s.modules[id]? = some r)
    (exported : r.Exports exports) : t.modules[id]? = some r :=
  (h.upholds.mono fun _ _ uphold => uphold.moves).of_ended found (.inl exported.1)

theorem Reaches.promises (h : Reaches s t) (found : s.modules[id]? = some r)
    (promises : r.Promises exports) :
    ∃ r', t.modules[id]? = some r' ∧ r'.Promises exports := by
  obtain ⟨r', found', uphold⟩ := h.upholds.old id r found
  exact ⟨r', found', uphold.promises exports promises⟩

theorem Reaches.offers (h : Reaches s t) (found : s.modules[id]? = some r)
    (offers : r.Offers .linked exports) :
    ∃ r', t.modules[id]? = some r' ∧ r'.Offers .linked exports := by
  obtain ⟨r', found', uphold⟩ := h.upholds.old id r found
  exact ⟨r', found', uphold.offers exports offers⟩

end State

theorem Entries.get?_filter {es : Fields} {key name : String} (other : key ≠ name) :
    get? (es.filter (·.1 ≠ name)) key = get? es key := by
  induction es with
  | nil => rfl
  | cons e es ih =>
    by_cases here : e.1 = name
    · have past : e.1 ≠ key := fun same => other (same.symm.trans here)
      rw [List.filter_cons_of_neg (by simp [here]), get?, if_neg past, ih]
    · rw [List.filter_cons_of_pos (by simp [here]), get?, get?, ih]

/-- An import of one name binds it to what the binding takes from the exports. -/
theorem Script.bindImport_single {exportsOf : String → Except LoadError Fields}
    {specifier : String} {exports : Fields} (found : exportsOf specifier = .ok exports)
    (locals : Fields) (b : Binding) :
    bindImport exportsOf locals { specifier, bindings := [b] } =
      bind specifier exports locals b := by
  rw [bindImport, found]
  show (bind specifier exports locals b >>= pure) = _
  exact bind_pure _

namespace State

variable {s : State} {id : ModuleId} {r : ModuleRecord} {exports : Fields}

/-- Whatever imports the module gets these exports, each under its name or all of them as one object
in their order. -/
structure Exposes (s : State) (id : ModuleId) (exports : Fields) : Prop where
  handle : (namespaceOf id).run s = (.ok exports, s)
  everything : ∀ deps source, Entries.get? deps source = some id → ∀ locals own,
    Script.bindImport (s.exportsOf deps) locals ⟨source, [.everything own]⟩ =
      .ok (Entries.insert locals own (.object exports))
  default : ∀ deps source, Entries.get? deps source = some id → ∀ value,
    Entries.get? exports "default" = some value → ∀ locals own,
      Script.bindImport (s.exportsOf deps) locals ⟨source, [.defaultExport own]⟩ =
        .ok (Entries.insert locals own value)
  named : ∀ deps source, Entries.get? deps source = some id → ∀ key value,
    Entries.get? exports key = some value → ∀ locals own,
      Script.bindImport (s.exportsOf deps) locals ⟨source, [.named key own]⟩ =
        .ok (Entries.insert locals own value)

theorem exposes_of_exports (found : s.modules[id]? = some r) (exported : r.Exports exports) :
    s.Exposes id exports := by
  have behind {deps : List (String × ModuleId)} {source : String}
      (bound : Entries.get? deps source = some id) : s.exportsOf deps source = .ok exports := by
    rw [exportsOf, bound]
    exact congrArg Prod.fst (run_namespaceOf_of_exports found exported)
  constructor
  case handle => exact run_namespaceOf_of_exports found exported
  case everything =>
    intro deps source bound locals own
    exact Script.bindImport_single (behind bound) locals (.everything own)
  case default =>
    intro deps source bound value taken locals own
    rw [Script.bindImport_single (behind bound), Script.bind, Script.exportOf, taken]
    rfl
  case named =>
    intro deps source bound key value taken locals own
    rw [Script.bindImport_single (behind bound), Script.bind, Script.exportOf, taken]
    rfl

end State

namespace Loader

variable {l : Loader} {specifier : String} {p : Package} {s : State} {referrer : ModuleId}
  {r : ModuleRecord}

theorem resolveImport_of_package (runImport : Option String → Path → Action ModuleId)
    (package : l.config.isBytecode specifier = false) (answer : l.packages.answer specifier = .ok p)
    (importer : s.modules[referrer]? = some r) :
    ∃ t, (l.resolveImport runImport specifier referrer).run s = (.ok s.modules.length, t) ∧
      t.modules[s.modules.length]? =
        some { body := .synthetic p.exportNames (some p.setup), context := r.context } := by
  have run := run_resolveImport l runImport specifier importer
  have asked := run_require l.packages specifier s
  rw [answer] at asked
  rw [if_neg (Bool.eq_false_iff.1 package), Action.run_bind_ok asked, run_syntheticModule] at run
  exact ⟨_, run, by simp⟩

/-- The module made for a package can be linked at any later time and evaluated at any time after
that. It exposes then the whole value and the other named entries in order. The exports that are set
are the ones declared, and those of an object are its entries. -/
theorem package_module (l : Loader) (runImport : Option String → Path → Action ModuleId)
    (specifier : String) (p : Package) (s : State) (referrer : ModuleId) (r : ModuleRecord)
    (package : l.config.isBytecode specifier = false) (answer : l.packages.answer specifier = .ok p)
    (distinct : (Entries.keys p.named).Nodup) (importer : s.modules[referrer]? = some r) :
    let exports : Fields := ("default", p.whole) :: p.named.filter (·.1 ≠ "default")
    let id := s.modules.length
    (∃ t, (l.resolveImport runImport specifier referrer).run s = (.ok id, t) ∧
      t.modules[id]? =
        some { body := .synthetic p.exportNames (some p.setup), context := r.context } ∧
      ∀ u, t.Reaches u → ∀ resolve, ∃ v, (State.link resolve id).run u = (.ok (), v) ∧
        ∀ w, v.Reaches w → ∃ x, (State.evaluate id).run w = (.ok (), x) ∧
          ∀ y, x.Reaches y → y.Exposes id exports) ∧
    p.setup.exports.map (·.1) = p.exportNames ∧ p.setup.failure = none ∧
    Entries.get? exports "default" = some p.whole ∧
    (∀ key, key ≠ "default" → Entries.get? exports key = Entries.get? p.named key) ∧
    ∀ table entries, l.packages = .ofTable table →
      Entries.get? table specifier = some (.object entries) →
        p.whole = .object entries ∧ p.named = entries := by
  intro exports id
  have setup : Setup.run p.exportNames (some p.setup) = .ok exports := by
    rw [p.run_setup, p.exports_eq distinct]
    rfl
  refine ⟨?_, rfl, rfl, rfl, ?_, ?_⟩
  · obtain ⟨t, resolved, made⟩ := resolveImport_of_package runImport package answer importer
    have promised : ModuleRecord.Promises
        { body := .synthetic p.exportNames (some p.setup), context := r.context } exports :=
      .inl (.inr ⟨rfl, rfl, _, _, rfl, setup⟩)
    refine ⟨t, resolved, made, ?_⟩
    intro u before resolve
    obtain ⟨_, found, promises⟩ := before.promises made promised
    obtain ⟨v, _, linked, found, offers⟩ := State.link_of_promises resolve found promises
    refine ⟨v, linked, ?_⟩
    intro w between
    obtain ⟨_, found, offers⟩ := between.offers found offers
    obtain ⟨x, _, evaluated, found, exported⟩ := State.evaluate_of_linked found offers
    refine ⟨x, evaluated, ?_⟩
    intro y later
    exact State.exposes_of_exports (later.evaluated found exported) exported
  · intro key other
    rw [Entries.get?, if_neg (Ne.symm other), Entries.get?_filter other]
  · intro table entries packages object
    have whole : p = .ofValue (.object entries) := by
      rw [packages, Packages.ofTable] at answer
      simp only [object, Except.ok.injEq] at answer
      exact answer.symm
    rw [whole]
    exact ⟨rfl, rfl⟩

def legacy : Fields := [("x", .int 1), ("default", .int 5), ("y", .bool true)]

def wrapping : Loader := { plain 1 with packages := .ofTable [("legacy", .object legacy)] }

/-- An own `default` entry gives way to the whole object. -/
theorem package_module_legacy :
    let s : State := { modules := [{ body := .source {}, context := some "page" }] }
    ∃ t u v, (wrapping.resolveImport wrapping.runPath "legacy" 0).run s = (.ok 1, t) ∧
      (State.link (wrapping.resolveImport wrapping.runPath) 1).run t = (.ok (), u) ∧
      (State.evaluate 1).run u = (.ok (), v) ∧
      (State.namespaceOf 1).run v =
        (.ok [("default", .object legacy), ("x", .int 1), ("y", .bool true)], v) := by
  intro s
  obtain ⟨⟨t, resolved, _, links⟩, _⟩ := package_module wrapping wrapping.runPath "legacy"
    (.ofValue (.object legacy)) s 0 _ (by decide) rfl (by decide) rfl
  obtain ⟨u, linked, evaluates⟩ := links t .refl (wrapping.resolveImport wrapping.runPath)
  obtain ⟨v, evaluated, exports⟩ := evaluates u .refl
  exact ⟨t, u, v, resolved, linked, evaluated, (exports v .refl).handle⟩

end Loader

end CodeCache
