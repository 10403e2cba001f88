import CodeCache.Proofs.Closure
import CodeCache.Proofs.ImportCycles

/-! # Failed runs

A run fails at one place: in opening a blob, in finding a package, or in evaluating a module. The
place lies at the end of a chain of loads, each within the link pass of the one before. The failure
passes through these link passes, which leave the modules of the chain as they were made. So no body
of an importer runs, and a module that went wrong is the one whose evaluation the run failed in. -/

namespace CodeCache

open Relation (ReflTransGen)
open ModuleRecord (Course LinkMove EvalMove Moves)
open State (Follows Resolver Seen Resolves Yields Keeps)

namespace State

variable {s t : State} {id i : ModuleId} {r : ModuleRecord}

theorem Errored.of_modified {f : ModuleRecord → ModuleRecord} (h : (s.modified id f).Errored i)
    (fine : ∀ r : ModuleRecord, s.modules[id]? = some r → ∀ m, (f r).status ≠ .errored m) :
    i ≠ id ∧ s.Errored i := by
  obtain ⟨q, m, found, errored⟩ := h
  have other : i ≠ id := by
    rintro rfl
    simp only [modified, List.getElem?_modify_eq] at found
    obtain ⟨r, before, rfl⟩ := Option.map_eq_some_iff.1 found
    exact fine r before m errored
  exact ⟨other, q, m, ((onlyAt_modified s id f).other i other).symm.trans found, errored⟩

theorem Errored.of_follows (h : t.Errored i) (follows : Follows Eq s t) : s.Errored i := by
  obtain ⟨q, m, found, errored⟩ := h
  exact ⟨q, m, follows.unmoved found (by simp [errored]) fun _ same => same, errored⟩

end State

/-- Where the computation succeeds, no module has gone wrong in it. -/
def Action.Clean {α : Type} (a : Action α) : Prop :=
  ∀ s x t, a.run s = (.ok x, t) → ∀ i, t.Errored i → s.Errored i

theorem Action.Along.clean {α : Type} {a : Action α} (h : a.Along (Follows Eq)) : a.Clean := by
  intro s x t run i errored
  have follows := h s
  rw [run] at follows
  exact errored.of_follows follows

open CodeCache.Action (Clean)

namespace State

theorem clean_sequential : Sequential Clean := by
  have step := follows_sequential ModuleRecord.eq_course
  constructor
  case pure => exact fun x => (step.pure x).clean
  case throw => exact fun e => (step.throw e).clean
  case record => exact fun event => (step.record event).clean
  case bind =>
    intro α β a f ha hf s y t run i errored
    obtain ⟨x, u, first, second⟩ := Action.run_bind_eq_ok.1 run
    exact ha s x u first i (hf x u y t second i errored)

theorem linkWithin_clean {resolve : Resolver}
    (hr : ∀ specifier referrer, Clean (resolve specifier referrer)) (depth : Nat) (id : ModuleId)
    (seen : Seen) : Clean (linkWithin resolve depth id seen) := by
  induction depth generalizing id seen with
  | zero =>
    intro s x t run
    cases run
  | succ depth ih =>
    intro s x t run i errored
    cases linkWithin_result run with
    | done => exact errored
    | linked found status imports =>
      obtain ⟨_, inner⟩ := errored.of_modified (by simp)
      have before := clean_sequential.linkImports hr ih id _ seen _ _ _ imports i inner
      exact (before.of_modified (by simp)).2

theorem evaluateWithin_clean (depth : Nat) (id : ModuleId) : Clean (evaluateWithin depth id) := by
  induction depth generalizing id with
  | zero =>
    intro s x t run
    cases run
  | succ depth ih =>
    intro s x t run i errored
    cases evaluateWithin_result run with
    | done => exact errored
    | @evaluated r exports u found status deps =>
      obtain ⟨_, inner⟩ := errored.of_modified (by simp)
      have each : Clean (r.deps.forM fun dep => evaluateWithin depth dep.2) :=
        clean_sequential.forM fun dep => ih dep.2
      have before := each _ _ _ deps i inner
      exact (before.of_modified (by simp)).2

theorem clean_making : Making Clean := by
  have quiet := follows_making ModuleRecord.eq_course
  constructor
  case toSequential => exact clean_sequential
  case moduleAt => exact fun id => (quiet.moduleAt id).clean
  case request => exact fun specifier => (quiet.request specifier).clean
  case compile => exact fun b source => (quiet.compile b source).clean
  case sourceModule =>
    exact fun b source cached context => (quiet.sourceModule b source cached context).clean
  case syntheticModule =>
    exact fun names setup context => (quiet.syntheticModule names setup context).clean

theorem clean_stepwise : Stepwise Clean := by
  have step := clean_sequential
  constructor
  case toMaking => exact clean_making
  case link =>
    intro resolve hr id s x t run
    rw [run_link] at run
    have pass := step.bind (linkWithin_clean hr (s.modules.length + 2) id []) fun _ => step.pure ()
    exact pass { s with events := s.events ++ [.link id] } x t run
  case evaluate =>
    intro id s x t run
    rw [run_evaluate] at run
    exact evaluateWithin_clean _ id { s with events := s.events ++ [.evaluate id] } x t run

end State

inductive Load where
  | bytes (blob : Bytes)
  | path (depth : Nat) (importers : List Path) (p : Path)

namespace Load

def ofOrigin (l : Loader) : BlobOrigin → Load
  | .bytes blob => bytes blob
  | .path p => path l.storage.pathBound [] p

def run (l : Loader) (context : Option String) : Load → Action ModuleId
  | bytes blob => l.run context (.bytes blob)
  | path depth importers p => l.runPathWithin depth importers context p

/-- What is done for a blob until there is a module for it. -/
def opening (l : Loader) (context : Option String) : Load → Action ModuleId
  | bytes blob => l.openBlob none context blob
  | path 0 _ _ => throw (.link .tooDeep)
  | path (_ + 1) importers p =>
    if importers.any (·.same p) then throw (.link (.importCycle (importers ++ [p])))
    else do l.openBlob (some p) context (← l.readBlob p)

def nested (l : Loader) : Load → Path → Load
  | bytes _, p => path l.storage.pathBound [] p
  | path depth importers q, p => path (depth - 1) (importers ++ [q]) p

def imports (l : Loader) (load : Load) : Resolver :=
  l.resolveImport fun context p => (load.nested l p).run l context

variable {l : Loader} {context : Option String} {load : Load} {s t : State} {id : ModuleId}
  {e : LoadError}

theorem run_ofOrigin (l : Loader) (context : Option String) (origin : BlobOrigin) :
    (ofOrigin l origin).run l context = l.run context origin := by
  cases origin <;> rfl

/-- A load makes a module, links it and evaluates it. -/
theorem run_eq (l : Loader) (context : Option String) (load : Load) :
    load.run l context = load.opening l context >>= Loader.finish (load.imports l) := by
  match load with
  | bytes blob => rfl
  | path 0 importers p => rfl
  | path (depth + 1) importers p =>
    rw [run, Loader.runPathWithin_succ, Loader.loadPath, opening]
    by_cases closed : importers.any (·.same p) = true
    · rw [if_pos closed, if_pos closed]
      rfl
    · rw [if_neg closed, if_neg closed, bind_assoc]
      rfl

theorem opening_making {P : ∀ {α : Type}, Action α → Prop} (step : Making P) (l : Loader)
    (context : Option String) (load : Load) : P (load.opening l context) := by
  match load with
  | bytes blob => exact step.openBlob l none context blob
  | path 0 importers p => exact step.throw _
  | path (depth + 1) importers p =>
    rw [opening]
    split
    · exact step.throw _
    · apply step.bind (step.readBlob l p)
      intro blob
      exact step.openBlob l (some p) context blob

theorem run_stepwise {P : ∀ {α : Type}, Action α → Prop} (step : Stepwise P) (l : Loader)
    (context : Option String) (load : Load) : P (load.run l context) := by
  cases load with
  | bytes blob => exact step.runBlob l (step.resolveBlob l) none context blob
  | path depth importers p => exact step.runPathWithin l depth importers context p

theorem imports_stepwise {P : ∀ {α : Type}, Action α → Prop} (step : Stepwise P) (l : Loader)
    (load : Load) (specifier : String) (referrer : ModuleId) :
    P (load.imports l specifier referrer) :=
  step.resolveImport l (fun context p => run_stepwise step l context (load.nested l p)) specifier
    referrer

theorem opening_ok (opened : (load.opening l context).run s = (.ok id, t)) :
    id = s.modules.length ∧
      ∃ script, t.modules[id]? = some { body := .source script, context } := by
  have blob {origin : Option Path} {content : Bytes}
      (opened : (l.openBlob origin context content).run s = (.ok id, t)) :
      id = s.modules.length ∧
        ∃ script, t.modules[id]? = some { body := .source script, context } := by
    cases decoded : l.decodeBlob origin content with
    | error e =>
      obtain ⟨u, run, _⟩ := Loader.openBlob_of_error decoded context s
      cases run.symm.trans opened
    | ok script =>
      obtain ⟨u, run, _, record⟩ := Loader.openBlob_of_ok decoded context s
      cases run.symm.trans opened
      exact ⟨rfl, script, record⟩
  match load with
  | bytes content => exact blob opened
  | path 0 importers p => cases opened
  | path (depth + 1) importers p =>
    rw [opening] at opened
    split at opened
    · cases opened
    · obtain ⟨content, u, read, made⟩ := Action.run_bind_eq_ok.1 opened
      have same : u = s := by
        rw [Loader.readBlob] at read
        cases found : l.storage.read p with
        | ok content =>
          rw [found] at read
          cases read
          rfl
        | error e =>
          rw [found] at read
          cases read
      subst same
      exact blob made

def exportsAt (l : Loader) (globals : Scope) (chain : List Path)
    (imports : Path → Except LoadError Fields) (p : Path) : Except LoadError Fields :=
  if chain.any (·.same p) then .error (.link (.importCycle (chain ++ [p])))
  else
    match l.storage.read p with
    | .ok blob => l.interpretBlob imports globals (some p) blob
    | .error e => .error (.storage e)

/-- What loading a path comes to depends on the globals of the context only. -/
theorem runPathWithin_offers (l : Loader) (contexts : Entries Fields) (context : Option String)
    (depth : Nat) (chain : List Path) :
    ∃ pathExports : Path → Except LoadError Fields, ∀ s : State, s.contexts = contexts → ∀ p,
      Yields ModuleRecord.Exports (l.runPathWithin depth chain context p) s (pathExports p) := by
  induction depth generalizing chain with
  | zero => exact ⟨fun _ => .error (.link .tooDeep), fun s _ p => .fails (.refl _ s) rfl⟩
  | succ depth ih =>
    choose next yields using fun p => ih (chain ++ [p])
    refine ⟨fun p => exportsAt l (({ contexts } : State).globals context) chain (next p) p, ?_⟩
    intro s same p
    dsimp only
    rw [Loader.runPathWithin_succ, Loader.loadPath, exportsAt]
    by_cases closed : chain.any (·.same p) = true
    · rw [if_pos closed, if_pos closed]
      exact .fails (.refl _ s) rfl
    rw [if_neg closed, if_neg closed, Loader.readBlob]
    cases l.storage.read p with
    | error e => exact .fails (.refl _ s) rfl
    | ok blob =>
      have globals : ({ contexts } : State).globals context = s.globals context :=
        State.globals_congr same.symm context
      simp only [globals]
      have resolves : Resolves (l.resolveImport (l.runPathWithin depth (chain ++ [p]))) contexts
          context (l.importExports (next p)) := Loader.resolveImport_resolves (yields p)
      rw [← same] at resolves
      exact Loader.runBlob_yields resolves (some p) blob

theorem imports_resolves (l : Loader) (load : Load) (contexts : Entries Fields)
    (context : Option String) : ∃ exports, Resolves (load.imports l) contexts context exports := by
  cases load with
  | bytes blob =>
    obtain ⟨next, yields⟩ := runPathWithin_offers l contexts context l.storage.pathBound []
    exact ⟨_, Loader.resolveImport_resolves yields⟩
  | path depth importers p =>
    obtain ⟨next, yields⟩ := runPathWithin_offers l contexts context (depth - 1) (importers ++ [p])
    exact ⟨_, Loader.resolveImport_resolves yields⟩

end Load

namespace State

section

variable {resolve : Resolver} {linkDep : ModuleId → Seen → Action Seen} {referrer id : ModuleId}
  {seen seen' : Seen} {deps : List (String × ModuleId)} {before specifiers : List String}
  {specifier : String} {s t u v : State} {e : LoadError}

inductive Asks (resolve : Resolver) (id : ModuleId) (s : State) : String → State → Prop where
  | intro {r : ModuleRecord} {before after : List String} {specifier : String} {seen : Seen}
      {deps : List (String × ModuleId)} {u : State} (found : s.modules[id]? = some r)
      (specifiers : r.body.specifiers = before ++ specifier :: after)
      (linked : (linkImports resolve (linkWithin resolve (s.modules.length + 1)) id before []).run
        (({ s with events := s.events ++ [.link id] } : State).modified id
          ({ · with status := .linking })) = (.ok (seen, deps), u))
      (unseen : Entries.get? seen specifier = none) :
      Asks resolve id s specifier { u with events := u.events ++ [.resolve specifier id] }

theorem Asks.mem (asks : Asks resolve id s specifier t) {r : ModuleRecord}
    (found : s.modules[id]? = some r) : specifier ∈ r.body.specifiers := by
  cases asks with
  | intro found' shape =>
    cases found.symm.trans found'
    rw [shape]
    exact List.mem_append_right _ List.mem_cons_self

theorem linkImports_of_unresolved (after : List String)
    (linked : (linkImports resolve linkDep referrer before seen).run s = (.ok (seen', deps), u))
    (unseen : Entries.get? seen' specifier = none)
    (failed : (resolve specifier referrer).run
      { u with events := u.events ++ [.resolve specifier referrer] } = (.error e, t)) :
    (linkImports resolve linkDep referrer (before ++ specifier :: after) seen).run s =
      (.error e, t) := by
  induction before generalizing seen s deps with
  | nil =>
    cases linked
    apply linkImports_cons_error.2
    left
    rw [run_resolveOnce_of_unseen unseen, failed]
  | cons first before ih =>
    obtain ⟨dep, w, seen₁, w', deps', resolved, done, others, _⟩ := linkImports_cons_ok.1 linked
    apply linkImports_cons_error.2
    right
    exact ⟨dep, w, resolved, .inr ⟨seen₁, w', done, ih others⟩⟩

theorem unresolved_of_linkImports {depth : Nat} {contexts : Entries Fields}
    {context : Option String} {exports : String → Except LoadError Fields} {r : ModuleRecord}
    (resolves : Resolves resolve contexts context exports) (here : r.context = context)
    (nodup : specifiers.Nodup)
    (unseen : ∀ specifier ∈ specifiers, Entries.get? seen specifier = none)
    (same : s.contexts = contexts) (record : s.modules[referrer]? = some r)
    (failed : (linkImports resolve (linkWithin resolve (depth + 1)) referrer specifiers
      seen).run s = (.error e, t)) :
    ∃ before specifier after seen' deps u, specifiers = before ++ specifier :: after ∧
      (linkImports resolve (linkWithin resolve (depth + 1)) referrer before seen).run s =
        (.ok (seen', deps), u) ∧
      Entries.get? seen' specifier = none ∧
      (resolve specifier referrer).run
        { u with events := u.events ++ [.resolve specifier referrer] } = (.error e, t) := by
  induction specifiers generalizing seen s with
  | nil => cases failed
  | cons specifier rest ih =>
    have fresh := unseen specifier List.mem_cons_self
    rcases linkImports_cons_error.1 failed with first | ⟨dep, u, resolved, later⟩
    · rw [run_resolveOnce_of_unseen fresh] at first
      exact ⟨[], specifier, rest, seen, [], s, rfl, rfl, fresh, first⟩
    have yields := resolves.once same record here fresh
    cases offered : exports specifier with
    | error e =>
      rw [offered] at yields
      cases yields with
      | fails _ run => cases run.symm.trans resolved
    | ok fields =>
      rw [offered] at yields
      cases yields with
      | @makes _ id _ t' keeps run new made holds =>
        cases run.symm.trans resolved
        -- What an import is resolved to can be linked, so that the failure comes later.
        obtain ⟨v, r', linked, only, _, _⟩ :=
          run_linkWithin_of_offers resolve depth (seen.insert specifier dep) made holds
        have stays : Keeps s.modules.length s v := keeps.trans (only.keeps new)
        have old : referrer < s.modules.length := (List.getElem?_eq_some_iff.1 record).1
        rcases later with wrong | ⟨seen₁, v', done, others⟩
        · cases linked.symm.trans wrong
        · cases linked.symm.trans done
          obtain ⟨before, next, after, seen', deps, w, shape, ran, unseen', stopped⟩ :=
            ih (List.nodup_cons.1 nodup).2 (unseen_insert dep nodup unseen)
              (stays.contexts.trans same) (stays.found old record) others
          refine ⟨specifier :: before, next, after, seen', (specifier, dep) :: deps, w, ?_, ?_,
            unseen', stopped⟩
          · rw [shape]
            rfl
          · exact linkImports_cons_ok.2 ⟨dep, u, _, v, deps, resolved, linked, ran, rfl⟩

theorem run_link_of_unresolved (asks : Asks resolve id s specifier u) {r : ModuleRecord}
    (found : s.modules[id]? = some r) (unlinked : r.status = .unlinked)
    (failed : (resolve specifier id).run u = (.error e, t)) :
    (link resolve id).run s = (.error e, t.modified id ({ · with status := .unlinked })) := by
  cases asks with
  | @intro q before after _ seen deps w found' shape linked unseen =>
    cases found.symm.trans found'
    have imports := linkImports_of_unresolved after linked unseen failed
    rw [← shape] at imports
    rw [run_link]
    exact Action.run_bind_error
      (run_linkWithin_of_error (s := { s with events := s.events ++ [.link id] }) found unlinked
        imports)

/-- Linking a script fails only where an import cannot be resolved. -/
theorem unresolved_of_link {contexts : Entries Fields} {context : Option String}
    {exports : String → Except LoadError Fields} {script : Script}
    (resolves : Resolves resolve contexts context exports) (same : s.contexts = contexts)
    (found : s.modules[id]? = some { body := .source script, context })
    (failed : (link resolve id).run s = (.error e, t)) :
    ∃ specifier u v, Asks resolve id s specifier u ∧
      (resolve specifier id).run u = (.error e, v) := by
  rw [run_link] at failed
  rcases Action.run_bind_eq_error.1 failed with pass | ⟨_, _, _, last⟩
  · cases linkWithin_result pass with
    | missing missing => cases missing.symm.trans found
    | refused found' status =>
      cases found.symm.trans found'
      cases status
    | @failed r _ v found' status imports =>
      cases found.symm.trans found'
      have marked := getElem?_modified (s := { s with events := s.events ++ [.link id] }) found
        ({ · with status := .linking })
      have kept : (({ s with events := s.events ++ [.link id] } : State).modified id
          ({ · with status := .linking })).contexts = contexts := same
      obtain ⟨before, specifier, after, seen, deps, u, shape, linked, unseen, stopped⟩ :=
        unresolved_of_linkImports resolves rfl (nodup_specifiers script) (fun _ _ => rfl) kept
          marked imports
      exact ⟨specifier, _, v, .intro found shape linked unseen, stopped⟩
  · cases last

end

end State

namespace Load

open State (Asks)
open CodeCache.Action (Clean)

/-- A load fails with an error. It comes with the modules of the blobs above the place where it
fails, from the top down, and with the module that was being evaluated there, if one was. -/
inductive Breaks (l : Loader) (context : Option String) :
    Load → State → LoadError → List ModuleId → Option ModuleId → Prop where
  | opening {load : Load} {s t : State} {e : LoadError}
      (failed : (load.opening l context).run s = (.error e, t)) : Breaks l context load s e [] none
  | evaluation {load : Load} {s t u v : State} {id : ModuleId} {e : LoadError}
      (opened : (load.opening l context).run s = (.ok id, u))
      (linked : (State.link (load.imports l) id).run u = (.ok (), v))
      (failed : (State.evaluate id).run v = (.error e, t)) :
      Breaks l context load s e [] (some id)
  | package {load : Load} {s u v : State} {id : ModuleId} {specifier : String} {e : LoadError}
      (opened : (load.opening l context).run s = (.ok id, u))
      (asks : Asks (load.imports l) id u specifier v)
      (conventional : l.config.isBytecode specifier = false)
      (answer : l.packages.answer specifier = .error e) : Breaks l context load s e [id] none
  | nested {load : Load} {s u v : State} {id : ModuleId} {specifier : String} {e : LoadError}
      {above : List ModuleId} {wrong : Option ModuleId}
      (opened : (load.opening l context).run s = (.ok id, u))
      (asks : Asks (load.imports l) id u specifier v)
      (bytecode : l.config.isBytecode specifier = true)
      (breaks : Breaks l context (load.nested l (l.config.blobPath specifier)) v e above wrong) :
      Breaks l context load s e (id :: above) wrong

/-- What a load that failed leaves behind: the modules above the place as they were made, and no
other module in error than the one that was being evaluated. -/
structure Aftermath (context : Option String) (s : State) (e : LoadError) (above : List ModuleId)
    (wrong : Option ModuleId) (t : State) : Prop where
  above : ∀ i ∈ above, s.modules.length ≤ i ∧
    ∃ script, t.modules[i]? = some { body := .source script, context }
  errored : ∀ i, t.Errored i → s.Errored i ∨ wrong = some i
  wrong : ∀ i, wrong = some i → s.modules.length ≤ i ∧ e.OfBody ∧
    ∃ (r : ModuleRecord) (script : Script) (message : String), t.modules[i]? = some r ∧
      r.body = .source script ∧ r.status = .errored message

variable {l : Loader} {context : Option String} {load : Load} {s t u v : State} {id : ModuleId}
  {e : LoadError} {above : List ModuleId} {wrong : Option ModuleId} {specifier : String}

theorem errored_of_opening {outcome : Except LoadError ModuleId}
    (run : (load.opening l context).run s = (outcome, t)) {i : ModuleId} (errored : t.Errored i) :
    s.Errored i := by
  have follows := opening_making (State.follows_making ModuleRecord.eq_course) l context load s
  rw [run] at follows
  exact errored.of_follows follows

/-- A record that is being linked stays as it is until an import of it is asked for. -/
theorem kept_of_asks (asks : Asks (load.imports l) id u specifier v) {r : ModuleRecord}
    (found : u.modules[id]? = some r) :
    v.modules[id]? = some { r with status := .linking } ∧ ∀ i, v.Errored i → u.Errored i := by
  have step := State.moves_stepwise
  cases asks with
  | @intro q before after _ seen deps w found' shape linked unseen =>
    constructor
    · have follows := step.toSequential.linkImports (imports_stepwise step l load)
        (State.linkWithin_follows ModuleRecord.moves_course (fun _ _ h => .single (.inl h))
          (imports_stepwise step l load) (u.modules.length + 1)) id before []
        (({ u with events := u.events ++ [.link id] } : State).modified id
          ({ · with status := .linking }))
      rw [linked] at follows
      exact follows.busy ModuleRecord.moves_course
        (State.getElem?_modified (s := { u with events := u.events ++ [.link id] }) found _)
        (by simp [Status.Rests])
    · intro i errored
      have clean := State.clean_sequential.linkImports
        (imports_stepwise State.clean_stepwise l load)
        (State.linkWithin_clean (imports_stepwise State.clean_stepwise l load)
          (u.modules.length + 1)) id before [] _ _ _ linked i errored
      exact (clean.of_modified (by simp)).2

/-- An import that cannot be resolved fails the load, whose module is then as it was made. -/
theorem Aftermath.importer (opened : (load.opening l context).run s = (.ok id, u))
    (asks : Asks (load.imports l) id u specifier v)
    (failed : (load.imports l specifier id).run v = (.error e, t))
    (inner : Aftermath context v e above wrong t) :
    ∃ t', (load.run l context).run s = (.error e, t') ∧
      Aftermath context s e (id :: above) wrong t' := by
  obtain ⟨first, script, made⟩ := opening_ok opened
  obtain ⟨marked, quiet⟩ := kept_of_asks asks made
  have moves := imports_stepwise State.moves_stepwise l load specifier id v
  rw [failed] at moves
  have own := moves.busy ModuleRecord.moves_course marked (by simp [Status.Rests])
  have run : (load.run l context).run s =
      (.error e, t.modified id ({ · with status := .unlinked })) := by
    rw [run_eq, Action.run_bind_ok opened]
    exact Action.run_bind_error (State.run_link_of_unresolved asks made rfl failed)
  have low : id < v.modules.length := (List.getElem?_eq_some_iff.1 marked).1
  have other {i : ModuleId} (later : v.modules.length ≤ i) :
      (t.modified id ({ · with status := .unlinked })).modules[i]? = t.modules[i]? :=
    (State.onlyAt_modified t id _).other i (Nat.ne_of_gt (Nat.lt_of_lt_of_le low later))
  have grown : s.modules.length ≤ v.modules.length := first ▸ Nat.le_of_lt low
  refine ⟨_, run, ?_, ?_, ?_⟩
  · intro i member
    rcases List.mem_cons.1 member with rfl | member
    · exact ⟨Nat.le_of_eq first.symm, script, State.getElem?_modified own _⟩
    · obtain ⟨later, script', found⟩ := inner.above i member
      exact ⟨Nat.le_trans grown later, script', (other later).trans found⟩
  · intro i errored
    obtain ⟨_, before⟩ := errored.of_modified (by simp)
    rcases inner.errored i before with old | here
    · exact .inl (errored_of_opening opened (quiet i old))
    · exact .inr here
  · intro i here
    obtain ⟨later, own, r, script', message, found, body, status⟩ := inner.wrong i here
    exact ⟨Nat.le_trans grown later, own, r, script', message, (other later).trans found, body,
      status⟩

/-- An evaluation that fails leaves the module in error, and no other one: what it depends on can be
evaluated. -/
theorem Aftermath.evaluated (opened : (load.opening l context).run s = (.ok id, u))
    (linked : (State.link (load.imports l) id).run u = (.ok (), v))
    (failed : (State.evaluate id).run v = (.error e, t)) :
    Aftermath context s e [] (some id) t := by
  obtain ⟨first, script, made⟩ := opening_ok opened
  obtain ⟨exports, resolves⟩ := imports_resolves l load u.contexts context
  cases found : Loader.gather exports script.specifiers with
  | error e' =>
    obtain ⟨_, run, _⟩ := resolves.link_of_error rfl made rfl rfl rfl found
    cases run.symm.trans linked
  | ok fields =>
    obtain ⟨_, r, run, _, own, status, body, _, bound⟩ :=
      resolves.link_of_ok rfl made rfl rfl rfl found
    cases run.symm.trans linked
    obtain ⟨w, r', deps, _, _, ran⟩ :=
      State.evaluate_deps own body bound (v.events ++ [.evaluate id])
    have kept := State.kept_of_evaluateDeps (s := { v with events := v.events ++ [.evaluate id] })
      own deps
    cases outcome : script.run (v.globals r.context) (Loader.gathered fields) with
    | ok out =>
      obtain ⟨_, _, run', _⟩ := State.evaluate_of_ok own status body bound outcome
      cases run'.symm.trans failed
    | error e' =>
      have run' := State.run_evaluateWithin_of_error
        (s := { v with events := v.events ++ [.evaluate id] }) own status deps (ran.trans outcome)
      cases ((State.run_evaluate id v).trans run').symm.trans failed
      have own' : e.OfBody := Script.run_fails _ (fun _ own => own.body)
        (fun i _ => Loader.gathered_fails fields i.specifier) e outcome
      refine ⟨nofun, ?_, ?_⟩
      · intro i errored
        by_cases here : i = id
        · exact .inr (by rw [here])
        obtain ⟨q, message, foundAt, status'⟩ := errored
        rw [(State.onlyAt_modified w id _).other i here] at foundAt
        have each : Clean (r.deps.forM fun dep => State.evaluateWithin v.modules.length dep.2) :=
          State.clean_sequential.forM fun dep => State.evaluateWithin_clean _ dep.2
        have before := each _ _ _ deps i ⟨q, message, foundAt, status'⟩
        obtain ⟨_, after⟩ := before.of_modified (by simp)
        have clean := State.clean_stepwise.link (imports_stepwise State.clean_stepwise l load) id
        exact .inl (errored_of_opening opened (clean u () v linked i after))
      · rintro i ⟨⟩
        refine ⟨Nat.le_of_eq first.symm, own', _, script, _, State.getElem?_modified kept _, ?_,
          rfl⟩
        show r.body.begun = .source script
        rw [body]
        rfl

theorem Breaks.fails (breaks : Breaks l context load s e above wrong) :
    ∃ t, (load.run l context).run s = (.error e, t) ∧ Aftermath context s e above wrong t := by
  -- From the place upwards: each load on the way fails as the one within it.
  induction breaks with
  | opening failed =>
    refine ⟨_, by rw [run_eq, Action.run_bind_error failed], nofun, ?_, nofun⟩
    intro i errored
    exact .inl (errored_of_opening failed errored)
  | evaluation opened linked failed =>
    refine ⟨_, ?_, .evaluated opened linked failed⟩
    rw [run_eq, Action.run_bind_ok opened, Loader.finish, Action.run_bind_ok linked,
      Action.run_bind_error failed]
  | @package load s u v id specifier e opened asks conventional answer =>
    obtain ⟨_, _, made⟩ := opening_ok opened
    have start := Loader.run_resolveImport l (fun context p => (load.nested l p).run l context)
      specifier (kept_of_asks asks made).1
    have asked := Loader.run_require l.packages specifier v
    rw [answer] at asked
    rw [if_neg (Bool.eq_false_iff.1 conventional), Action.run_bind_error asked] at start
    refine Aftermath.importer opened asks start ⟨nofun, ?_, nofun⟩
    exact fun i errored => .inl errored
  | @nested load s u v id specifier e above wrong opened asks bytecode _ ih =>
    obtain ⟨_, _, made⟩ := opening_ok opened
    obtain ⟨t, failed, inner⟩ := ih
    have start := Loader.run_resolveImport l (fun context p => (load.nested l p).run l context)
      specifier (kept_of_asks asks made).1
    rw [if_pos bytecode] at start
    exact Aftermath.importer opened asks (start.trans failed) inner

/-- A load fails in one of its steps, or with an import that fails. -/
theorem breaks_of_run (failed : (load.run l context).run s = (.error e, t))
    (nested : ∀ p v t', ((load.nested l p).run l context).run v = (.error e, t') →
      ∃ above wrong, Breaks l context (load.nested l p) v e above wrong) :
    ∃ above wrong, Breaks l context load s e above wrong := by
  rw [run_eq] at failed
  rcases Action.run_bind_eq_error.1 failed with failed | ⟨id, u, opened, failed⟩
  · exact ⟨_, _, .opening failed⟩
  obtain ⟨_, script, made⟩ := opening_ok opened
  rcases Action.run_bind_eq_error.1 failed with unlinked | ⟨_, v, linked, failed⟩
  · obtain ⟨exports, resolves⟩ := imports_resolves l load u.contexts context
    obtain ⟨specifier, v, t', asks, failed⟩ := State.unresolved_of_link resolves rfl made unlinked
    have start := Loader.run_resolveImport l (fun context p => (load.nested l p).run l context)
      specifier (kept_of_asks asks made).1
    change (load.imports l specifier id).run v = _ at start
    by_cases bytecode : l.config.isBytecode specifier = true
    · rw [if_pos bytecode, failed] at start
      obtain ⟨above, wrong, breaks⟩ := nested _ v t' start.symm
      exact ⟨_, _, .nested opened asks bytecode breaks⟩
    · rw [if_neg bytecode, failed] at start
      cases answer : l.packages.answer specifier with
      | ok package =>
        have asked := Loader.run_require l.packages specifier v
        rw [answer] at asked
        rw [Action.run_bind_ok asked] at start
        cases start
      | error e' =>
        have asked := Loader.run_require l.packages specifier v
        rw [answer] at asked
        rw [Action.run_bind_error asked] at start
        cases start
        exact ⟨_, _, .package opened asks (Bool.eq_false_iff.2 bytecode) answer⟩
  · rcases Action.run_bind_eq_error.1 failed with failed | ⟨_, _, _, last⟩
    · exact ⟨_, _, .evaluation opened linked failed⟩
    · cases last

theorem breaks_of_path {depth : Nat} {importers : List Path} {p : Path}
    (failed : ((path depth importers p).run l context).run s = (.error e, t)) :
    ∃ above wrong, Breaks l context (path depth importers p) s e above wrong := by
  induction depth generalizing importers p s t with
  | zero => exact ⟨_, _, .opening (by exact failed)⟩
  | succ depth ih => exact breaks_of_run failed fun q v t' inner => ih inner

theorem breaks_of_origin {origin : BlobOrigin}
    (failed : (l.run context origin).run s = (.error e, t)) :
    ∃ above wrong, Breaks l context (ofOrigin l origin) s e above wrong := by
  cases origin with
  | bytes blob => exact breaks_of_run failed fun q v t' inner => breaks_of_path inner
  | path p => exact breaks_of_path failed

/-- A load whose module imports nothing fails by itself. -/
theorem Breaks.alone (breaks : Breaks l context load s e above wrong)
    (opened : (load.opening l context).run s = (.ok id, u)) {r : ModuleRecord}
    (made : u.modules[id]? = some r) (leaf : r.body.specifiers = []) :
    above = [] ∧ wrong = some id := by
  cases breaks with
  | opening failed => cases opened.symm.trans failed
  | evaluation opened' =>
    cases opened.symm.trans opened'
    exact ⟨rfl, rfl⟩
  | package opened' asks | nested opened' asks =>
    cases opened.symm.trans opened'
    have member := asks.mem made
    rw [leaf] at member
    cases member

theorem opening_path {m : Memory} (hm : l.storage = .memory m) {p : Path} {blob : Bytes}
    (file : m.get? p = some blob) (context : Option String) :
    (ofOrigin l (.path p)).opening l context = l.openBlob (some p) context blob := by
  rw [ofOrigin, hm, Storage.pathBound, opening, Loader.readBlob_of_found hm file]
  rfl

end Load

inductive LoadError.BeforeEvaluation : LoadError → Prop where
  | storage (e : StorageError) : BeforeEvaluation (.storage e)
  | header (e : HeaderError) : BeforeEvaluation (.header e)
  | version (text : String) : BeforeEvaluation (.version text)
  | compile (e : Script.SyntaxError) : BeforeEvaluation (.compile e)
  | cacheRejected (origin : Option Path) : BeforeEvaluation (.cacheRejected origin)
  | resolution (specifier message : String) : BeforeEvaluation (.resolution specifier message)
  | importCycle (chain : List Path) : BeforeEvaluation (.link (.importCycle chain))

namespace Loader

open Load (Breaks)

/-- A run that fails leaves no module in the middle of a pass. It fails at a place, and with the
error of every place that there is to it. The modules of the blobs above the place have not been
linked. A new module is in error exactly if it was being evaluated there, and then it is the module
of a blob; for the errors of files, packages, blobs and chains there is none. -/
theorem run_failed (l : Loader) (context : Option String) (origin : BlobOrigin) (s t : State)
    (e : LoadError) (rest : s.AtRest) (failed : (l.run context origin).run s = (.error e, t)) :
    t.AtRest ∧
      (∃ above wrong, Breaks l context (.ofOrigin l origin) s e above wrong) ∧
      ∀ e' above wrong, Breaks l context (.ofOrigin l origin) s e' above wrong →
        e' = e ∧
        (∀ i ∈ above, s.modules.length ≤ i ∧ ∃ (r : ModuleRecord) (script : Script),
          t.modules[i]? = some r ∧ r.body = .source script ∧ r.status = .unlinked ∧
            r.deps = [] ∧ r.exports = []) ∧
        (∀ i, s.modules.length ≤ i → (t.Errored i ↔ wrong = some i)) ∧
        (∀ i, wrong = some i → s.modules.length ≤ i ∧ ∃ (r : ModuleRecord) (script : Script),
          t.modules[i]? = some r ∧ r.body = .source script) ∧
        (e.BeforeEvaluation → wrong = none) := by
  have moves := Load.run_stepwise State.moves_stepwise l context (.ofOrigin l origin) s
  rw [Load.run_ofOrigin, failed] at moves
  refine ⟨moves.atRest rest, Load.breaks_of_origin failed, ?_⟩
  intro e' above wrong breaks
  obtain ⟨t', failed', after⟩ := breaks.fails
  rw [Load.run_ofOrigin] at failed'
  cases failed.symm.trans failed'
  refine ⟨rfl, ?_, ?_, ?_, ?_⟩
  · intro i member
    obtain ⟨later, script, found⟩ := after.above i member
    exact ⟨later, _, script, found, rfl, rfl, rfl, rfl⟩
  · intro i later
    constructor
    · intro errored
      rcases after.errored i errored with ⟨r, _, found, _⟩ | here
      · exact absurd (List.getElem?_eq_some_iff.1 found).1 (Nat.not_lt.2 later)
      · exact here
    · intro here
      obtain ⟨_, _, r, _, message, found, _, status⟩ := after.wrong i here
      exact ⟨r, message, found, status⟩
  · intro i here
    obtain ⟨later, _, r, script, _, found, body, _⟩ := after.wrong i here
    exact ⟨later, r, script, found, body⟩
  · intro early
    cases wrong with
    | none => rfl
    | some i =>
      obtain ⟨_, own, _⟩ := after.wrong i rfl
      cases early <;> cases own

def throwing : Script :=
  { body := [.declare "before" (.int 1) true, .throw (.str "kaboom")] }

theorem parse_throws : Script.parse Sample.throws = .ok throwing := by cbv

def thrower : Memory where
  files := [(⟨"b.jsc"⟩,
    Blob.encode throwing (Text.units16 Sample.throws) (plain 1).build.fingerprint)]

def raising : Loader := { plain 1 with storage := .memory thrower }

theorem get?_thrower : thrower.get? ⟨"b.jsc"⟩ =
    some (Blob.encode throwing (Text.units16 Sample.throws) (plain 1).build.fingerprint) := by
  simp [Memory.get?, thrower, Path.same_refl]

theorem decodeBlob_throws (origin : Option Path) :
    raising.decodeBlob origin (Blob.encode throwing (Text.units16 Sample.throws)
      (plain 1).build.fingerprint) = .ok throwing :=
  decodeBlob_plain (l := raising) rfl rfl parse_throws (by decide) (by decide) _ origin

theorem interpret_throws (globals : Scope) :
    raising.interpret thrower globals (.path ⟨"b.jsc"⟩) =
      .error (.evaluation (.uncaught "kaboom")) := by
  rw [interpret, interpretPath_of_file rfl get?_thrower, interpretBlob, decodeBlob_throws]
  rfl

/-- In every state, loading the file breaks in its own module. -/
theorem breaks_throws (s : State) :
    Breaks raising none (.ofOrigin raising (.path ⟨"b.jsc"⟩)) s
      (.evaluation (.uncaught "kaboom")) [] (some s.modules.length) := by
  obtain ⟨t, failed⟩ : ∃ t, (raising.run none (.path ⟨"b.jsc"⟩)).run s =
      (.error (.evaluation (.uncaught "kaboom")), t) :=
    ⟨_, Prod.ext ((run_error_iff (l := raising) (m := thrower) rfl).2 (interpret_throws _)) rfl⟩
  obtain ⟨above, wrong, breaks⟩ := Load.breaks_of_origin failed
  obtain ⟨u, opened, _, made⟩ := openBlob_of_ok (decodeBlob_throws (some ⟨"b.jsc"⟩)) none s
  rw [← Load.opening_path (l := raising) rfl get?_thrower] at opened
  obtain ⟨rfl, rfl⟩ := breaks.alone opened made rfl
  exact breaks

def importsThrower : Script where
  imports := [{ specifier := "b.jsc", bindings := [] }]
  body := [.exportDefault (.int 1)]

theorem parse_importsThrower :
    Script.parse "import \"b.jsc\"; export default 1;" = .ok importsThrower := by
  cbv

/-- A file that imports itself leaves no module in error. A body that throws leaves its own, and the
module that imports it as it was made. -/
theorem run_failed_loop :
    (∃ t, (looping.run none (.path ⟨"a.jsc"⟩)).run {} =
        (.error (.link (.importCycle [⟨"a.jsc"⟩, ⟨"a.jsc"⟩])), t) ∧
      t.AtRest ∧ ∀ i, ¬t.Errored i) ∧
    ∃ blob t, raising.build.compile "import \"b.jsc\"; export default 1;" = .ok blob ∧
      (raising.run none (.bytes blob)).run {} = (.error (.evaluation (.uncaught "kaboom")), t) ∧
      t.AtRest ∧
      (∃ (r : ModuleRecord) (script : Script), t.modules[0]? = some r ∧
        r.body = .source script ∧ r.status = .unlinked ∧ r.deps = [] ∧ r.exports = []) ∧
      ∀ i, t.Errored i ↔ i = 1 := by
  have empty : State.AtRest {} := by
    intro i r found
    cases found
  constructor
  · obtain ⟨t, failed⟩ : ∃ t, (looping.run none (.path ⟨"a.jsc"⟩)).run {} =
        (.error (.link (.importCycle [⟨"a.jsc"⟩, ⟨"a.jsc"⟩])), t) :=
      ⟨_, Prod.ext ((run_error_iff (l := looping) (m := loop) rfl).2 (interpretPath_loop _)) rfl⟩
    obtain ⟨rest, ⟨above, wrong, breaks⟩, places⟩ := run_failed _ _ _ _ _ _ empty failed
    obtain ⟨_, _, errored, _, early⟩ := places _ _ _ breaks
    refine ⟨t, failed, rest, ?_⟩
    intro i there
    have here := (errored i (Nat.zero_le i)).1 there
    rw [early (.importCycle _)] at here
    cases here
  · obtain ⟨blob, compiled, decoded⟩ : ∃ blob,
        raising.build.compile "import \"b.jsc\"; export default 1;" = .ok blob ∧
        raising.decodeBlob none blob = .ok importsThrower :=
      ⟨_, Build.compile_eq parse_importsThrower _,
        decodeBlob_plain (l := raising) rfl rfl parse_importsThrower (by decide) (by decide) _ none⟩
    obtain ⟨units, size, opened⟩ := run_openBlob_of_ok decoded none {}
    have made := getElem?_made (raising.compiled {}) units size
      { body := .source importsThrower, context := none }
    have first : importsThrower.specifiers = [] ++ "b.jsc" :: [] := by decide
    have asks : State.Asks (Load.imports raising (.bytes blob)) 0 _ "b.jsc" _ :=
      .intro made first rfl rfl
    have breaks : Breaks raising none (.bytes blob) {} (.evaluation (.uncaught "kaboom")) [0]
        (some 1) := .nested opened asks (by decide) (breaks_throws _)
    obtain ⟨t, failed, _⟩ := breaks.fails
    obtain ⟨rest, _, places⟩ := run_failed raising none (.bytes blob) _ _ _ empty failed
    obtain ⟨_, above, errored, _, _⟩ := places _ _ _ breaks
    obtain ⟨_, importer⟩ := above 0 (List.mem_singleton_self 0)
    refine ⟨blob, t, compiled, failed, rest, importer, ?_⟩
    intro i
    rw [errored i (Nat.zero_le i), Option.some_inj, eq_comm]

end Loader

end CodeCache
