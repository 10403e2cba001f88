import CodeCache.Proofs.PackageModules

/-! # The names a module exports

Which names a module exports, and in which order, is written in its body: the exports are inserted
one after the other while the body runs, and a run that succeeds has run every statement. Imports
and globals only decide on the values, and for each name the last statement that exports it does.
-/

namespace CodeCache

def Stmt.exported : Stmt → List String
  | .declare name _ exported => if exported then [name] else []
  | .exportDefault _ => ["default"]
  | .exportList names => names.map (·.2)
  | .throw _ | .expr _ => []

def Script.exportNames (s : Script) : List String := (s.body.flatMap Stmt.exported).eraseDups

/-- The value that a statement gives an exported name when it starts in a frame. A list takes the
value that a name has there, the last one if it exports several under one name. -/
inductive Stmt.Gives (globals : Scope) (f : Script.Frame) : Stmt → String → Value → Prop
  | declare {name : String} {init : Expr} {value : Value}
      (evaluated : init.eval (f.scope globals) = .ok value) :
      Stmt.Gives globals f (.declare name init true) name value
  | exportDefault {e : Expr} {value : Value} (evaluated : e.eval (f.scope globals) = .ok value) :
      Stmt.Gives globals f (.exportDefault e) "default" value
  | exportList {before after : List (String × String)} {own name : String} {value : Value}
      (last : name ∉ after.map (·.2)) (inScope : f.scope globals own = some value) :
      Stmt.Gives globals f (.exportList (before ++ (own, name) :: after)) name value

namespace Script

variable {globals : Scope} {f g : Frame} {st : Stmt} {name : String} {body : List Stmt}

theorem evaluated_eq_ok {e : Expr} {value : Value} :
    evaluated globals f e = .ok value ↔ e.eval (f.scope globals) = .ok value := by
  rw [evaluated]
  cases e.eval (f.scope globals) <;> simp

inductive Runs (globals : Scope) (f : Frame) : Stmt → Frame → Prop
  | declare {name : String} {init : Expr} {value : Value}
      (evaluated : init.eval (f.scope globals) = .ok value) :
      Runs globals f (.declare name init false) { f with locals := f.locals.insert name value }
  | exportDeclare {name : String} {init : Expr} {value : Value}
      (evaluated : init.eval (f.scope globals) = .ok value) :
      Runs globals f (.declare name init true)
        { locals := f.locals.insert name value, exports := f.exports.insert name value }
  | exportDefault {e : Expr} {value : Value} (evaluated : e.eval (f.scope globals) = .ok value) :
      Runs globals f (.exportDefault e) { f with exports := f.exports.insert "default" value }
  | exportList {pairs : List (String × String)} {g : Frame}
      (ran : exportLocals globals f pairs = .ok g) : Runs globals f (.exportList pairs) g
  | expr {e : Expr} {value : Value} (evaluated : e.eval (f.scope globals) = .ok value) :
      Runs globals f (.expr e) f

theorem runStmt_runs (ran : runStmt globals f st = .ok g) : Runs globals f st g := by
  cases st with
  | declare name init exported =>
    obtain ⟨value, evaluated, ran⟩ := bind_eq_ok.1 ran
    cases ran
    cases exported with
    | true => exact .exportDeclare (evaluated_eq_ok.1 evaluated)
    | false => exact .declare (evaluated_eq_ok.1 evaluated)
  | exportDefault e =>
    obtain ⟨value, evaluated, ran⟩ := bind_eq_ok.1 ran
    cases ran
    exact .exportDefault (evaluated_eq_ok.1 evaluated)
  | exportList pairs => exact .exportList ran
  | throw e =>
    obtain ⟨_, _, ran⟩ := bind_eq_ok.1 ran
    cases ran
  | expr e =>
    obtain ⟨value, evaluated, ran⟩ := bind_eq_ok.1 ran
    cases ran
    exact .expr (evaluated_eq_ok.1 evaluated)

theorem keys_insert_eraseDups {exports : Fields} {names : List String} (name : String)
    (value : Value) (h : Entries.keys exports = names.eraseDups) :
    Entries.keys (exports.insert name value) = (names ++ [name]).eraseDups := by
  rw [Entries.keys_insert, h, Entries.eraseDups_concat]
  simp only [List.mem_eraseDups]

theorem keys_exportLocals {pairs : List (String × String)} {names : List String}
    (ran : exportLocals globals f pairs = .ok g) (h : Entries.keys f.exports = names.eraseDups) :
    Entries.keys g.exports = (names ++ pairs.map (·.2)).eraseDups := by
  induction pairs generalizing f names with
  | nil =>
    cases ran
    rwa [List.map_nil, List.append_nil]
  | cons pair pairs ih =>
    rw [exportLocals] at ran
    split at ran
    case h_1 value _ =>
      have others := ih ran (keys_insert_eraseDups pair.2 value h)
      rwa [List.append_assoc] at others
    case h_2 => cases ran

/-- A statement adds the names that it exports to the ones before, as far as they are new. -/
theorem Runs.keys {names : List String} (ran : Runs globals f st g)
    (h : Entries.keys f.exports = names.eraseDups) :
    Entries.keys g.exports = (names ++ st.exported).eraseDups := by
  cases ran with
  | declare | expr => simpa [Stmt.exported] using h
  | @exportDeclare name _ value => exact keys_insert_eraseDups name value h
  | @exportDefault _ value => exact keys_insert_eraseDups "default" value h
  | exportList ran => exact keys_exportLocals ran h

theorem keys_body {names : List String} (ran : body.foldlM (runStmt globals) f = .ok g)
    (h : Entries.keys f.exports = names.eraseDups) :
    Entries.keys g.exports = (names ++ body.flatMap Stmt.exported).eraseDups := by
  induction body generalizing f names with
  | nil =>
    cases ran
    rwa [List.flatMap_nil, List.append_nil]
  | cons st body ih =>
    obtain ⟨next, first, ran⟩ := foldlM_cons_eq_ok.1 ran
    rw [List.flatMap_cons, ← List.append_assoc]
    exact ih ran ((runStmt_runs first).keys h)

theorem get?_insert_ne {exports : Fields} {own : String} (other : name ≠ own) (value : Value) :
    Entries.get? (exports.insert own value) name = Entries.get? exports name := by
  rw [Entries.get?_insert, if_neg (Ne.symm other)]

theorem get?_insert_self (exports : Fields) (name : String) (value : Value) :
    Entries.get? (exports.insert name value) name = some value := by
  rw [Entries.get?_insert, if_pos rfl]

theorem exportLocals_other {pairs : List (String × String)}
    (ran : exportLocals globals f pairs = .ok g) (other : name ∉ pairs.map (·.2)) :
    Entries.get? g.exports name = Entries.get? f.exports name := by
  induction pairs generalizing f with
  | nil =>
    cases ran
    rfl
  | cons pair pairs ih =>
    rw [List.map_cons, List.mem_cons, not_or] at other
    rw [exportLocals] at ran
    split at ran
    case h_1 value _ => rw [ih ran other.2, get?_insert_ne other.1]
    case h_2 => cases ran

theorem Runs.other (ran : Runs globals f st g) (other : name ∉ st.exported) :
    Entries.get? g.exports name = Entries.get? f.exports name := by
  cases ran with
  | declare | expr => rfl
  | exportDeclare | exportDefault => exact get?_insert_ne (by simpa [Stmt.exported] using other) _
  | exportList ran => exact exportLocals_other ran other

theorem body_other (ran : body.foldlM (runStmt globals) f = .ok g)
    (other : name ∉ body.flatMap Stmt.exported) :
    Entries.get? g.exports name = Entries.get? f.exports name := by
  induction body generalizing f with
  | nil =>
    cases ran
    rfl
  | cons st body ih =>
    obtain ⟨next, first, ran⟩ := foldlM_cons_eq_ok.1 ran
    rw [List.flatMap_cons, List.mem_append, not_or] at other
    rw [ih ran other.2, (runStmt_runs first).other other.1]

/-- A list exports what its names stand for at its start: it changes no local. -/
theorem exportLocals_gives {pairs : List (String × String)}
    (ran : exportLocals globals f pairs = .ok g) (member : name ∈ pairs.map (·.2)) :
    ∃ before own after value, pairs = before ++ (own, name) :: after ∧
      name ∉ after.map (·.2) ∧ f.scope globals own = some value ∧
      Entries.get? g.exports name = some value := by
  induction pairs generalizing f with
  | nil => cases member
  | cons pair pairs ih =>
    obtain ⟨own, exported⟩ := pair
    rw [exportLocals] at ran
    split at ran
    case h_2 => cases ran
    case h_1 value inScope =>
      by_cases later : name ∈ pairs.map (·.2)
      · obtain ⟨before, own', after, value', rfl, last, found, given⟩ := ih ran later
        exact ⟨(own, exported) :: before, own', after, value', rfl, last, found, given⟩
      · obtain rfl : name = exported := (List.mem_cons.1 member).resolve_right later
        refine ⟨[], own, pairs, value, rfl, later, inScope, ?_⟩
        rw [exportLocals_other ran later, get?_insert_self]

theorem Runs.gives (ran : Runs globals f st g) (member : name ∈ st.exported) :
    ∃ value, st.Gives globals f name value ∧ Entries.get? g.exports name = some value := by
  cases ran with
  | declare | expr => cases member
  | exportDeclare evaluated =>
    obtain rfl := List.mem_singleton.1 member
    exact ⟨_, .declare evaluated, get?_insert_self _ _ _⟩
  | exportDefault evaluated =>
    obtain rfl := List.mem_singleton.1 member
    exact ⟨_, .exportDefault evaluated, get?_insert_self _ _ _⟩
  | exportList ran =>
    obtain ⟨before, own, after, value, rfl, last, inScope, given⟩ := exportLocals_gives ran member
    exact ⟨value, .exportList last inScope, given⟩

/-- The last statement that exports a name gives it its value. -/
theorem body_gives (ran : body.foldlM (runStmt globals) f = .ok g)
    (member : name ∈ body.flatMap Stmt.exported) :
    ∃ before st after h value, body = before ++ st :: after ∧ name ∈ st.exported ∧
      name ∉ after.flatMap Stmt.exported ∧ before.foldlM (runStmt globals) f = .ok h ∧
      st.Gives globals h name value ∧ Entries.get? g.exports name = some value := by
  induction body generalizing f with
  | nil => cases member
  | cons st body ih =>
    obtain ⟨next, first, ran⟩ := foldlM_cons_eq_ok.1 ran
    by_cases later : name ∈ body.flatMap Stmt.exported
    · obtain ⟨before, st', after, h, value, rfl, here, last, reached, gives, given⟩ := ih ran later
      refine ⟨st :: before, st', after, h, value, rfl, here, last, ?_, gives, given⟩
      exact foldlM_cons_eq_ok.2 ⟨next, first, reached⟩
    · have here : name ∈ st.exported := by
        rw [List.flatMap_cons, List.mem_append] at member
        exact member.resolve_right later
      obtain ⟨value, gives, given⟩ := (runStmt_runs first).gives here
      refine ⟨[], st, body, f, value, rfl, here, later, rfl, gives, ?_⟩
      exact (body_other ran later).trans given

/-- The exports are what the text of the script says: its exported names, and for each the value
that the last statement exporting it gives it, over the locals that the imports have bound. -/
structure Publishes (s : Script) (globals : Scope)
    (exportsOf : String → Except LoadError Fields) (exports : Fields) : Prop where
  names : Entries.keys exports = s.exportNames
  values : ∃ locals, s.imports.foldlM (bindImport exportsOf) [] = .ok locals ∧
    ∀ name ∈ s.exportNames, ∃ before st after f value, s.body = before ++ st :: after ∧
      name ∈ st.exported ∧ name ∉ after.flatMap Stmt.exported ∧
      before.foldlM (runStmt globals) { locals } = .ok f ∧ st.Gives globals f name value ∧
      Entries.get? exports name = some value

theorem run_publishes {s : Script} {exportsOf : String → Except LoadError Fields}
    {exports : Fields} (ran : s.run globals exportsOf = .ok exports) :
    s.Publishes globals exportsOf exports := by
  obtain ⟨locals, bound, ran⟩ := bind_eq_ok.1 ran
  obtain ⟨f, body, last⟩ := bind_eq_ok.1 ran
  cases last
  constructor
  case names =>
    have start : Entries.keys ([] : Fields) = ([] : List String).eraseDups := rfl
    have keys := keys_body body start
    rwa [List.nil_append] at keys
  case values =>
    refine ⟨locals, bound, fun name member => ?_⟩
    exact body_gives body (List.mem_eraseDups.1 member)

end Script

namespace Script

variable {s : Script} {globals : Scope} {exportsOf offered : String → Except LoadError Fields}
  {exports locals : Fields}

/-- Imports are bound alike where the same exports and possibly more are to be had. -/
theorem bindImports_mono {imports : List Import}
    (more : ∀ specifier found, exportsOf specifier = .ok found → offered specifier = .ok found)
    (bound : imports.foldlM (bindImport exportsOf) locals = .ok exports) :
    imports.foldlM (bindImport offered) locals = .ok exports := by
  induction imports generalizing locals with
  | nil => exact bound
  | cons i imports ih =>
    obtain ⟨next, first, bound⟩ := foldlM_cons_eq_ok.1 bound
    obtain ⟨found, got, first⟩ := bind_eq_ok.1 first
    exact foldlM_cons_eq_ok.2 ⟨next, bind_eq_ok.2 ⟨found, more _ _ got, first⟩, ih bound⟩

theorem Publishes.mono (h : s.Publishes globals exportsOf exports)
    (more : ∀ specifier found, exportsOf specifier = .ok found → offered specifier = .ok found) :
    s.Publishes globals offered exports := by
  obtain ⟨names, locals, bound, values⟩ := h
  exact ⟨names, locals, bindImports_mono more bound, values⟩

end Script

namespace ModuleRecord

variable {r r' : ModuleRecord} {exports : Fields} {s : State} {script : Script}

/-- If the module has been evaluated, its exports are those of its script, run over the globals of
its context and the exports of the modules it is linked to. -/
def Ran (r : ModuleRecord) : Prop :=
  r.status = .evaluated → ∀ script, r.body = .source script →
    ∃ s : State, script.run (s.globals r.context) (s.exportsOf r.deps) = .ok r.exports

structure RunsOn (r r' : ModuleRecord) : Prop where
  moves : r.Moves r'
  ran : r.Ran → r'.Ran

theorem runsOn_course : Course RunsOn := by
  constructor
  · exact fun _ => ⟨.refl, id⟩
  · exact fun h k => ⟨h.moves.trans k.moves, fun ran => k.ran (h.ran ran)⟩
  · exact fun h busy => moves_course.busy h.moves busy

theorem LinkMove.runsOn (h : r.LinkMove r') : r.RunsOn r' := by
  refine ⟨.single (.inl h), fun ran => ?_⟩
  cases h with
  | same => exact ran
  | linked => exact nofun

theorem source_of_begun (h : r.body.begun = .source script) : r.body = .source script := by
  cases body : r.body with
  | source own =>
    rw [body] at h
    exact h
  | placeholder | synthetic =>
    rw [body] at h
    cases h

theorem runsOn_of_evaluated (status : r.status = .linked) (ran : s.runModule r = .ok exports) :
    r.RunsOn { r with body := r.body.begun, exports, status := .evaluated } := by
  refine ⟨.single (.inr (.evaluated status)), fun _ _ script body => ⟨s, ?_⟩⟩
  rwa [State.runModule, source_of_begun body] at ran

theorem runsOn_of_errored {message : String} (status : r.status = .linked) :
    r.RunsOn { r with body := r.body.begun, status := .errored message } :=
  ⟨.single (.inr (.errored status)), fun _ => nofun⟩

end ModuleRecord

namespace State

open ModuleRecord (RunsOn runsOn_course)

variable {s t : State} {id : ModuleId} {r : ModuleRecord} {script : Script} {exports : Fields}

theorem evaluate_runsOn (id : ModuleId) : (evaluate id).Along (Follows RunsOn) := by
  have within := evaluateWithin_follows_of_run runsOn_course
    (fun _ _ _ => ModuleRecord.runsOn_of_evaluated) fun _ _ => ModuleRecord.runsOn_of_errored
  exact evaluate_follows_of_within runsOn_course within id

/-- In every state of an engine, an evaluated module holds the exports of a run of its script. -/
theorem Reaches.ran (h : Reaches {} s) (found : s.modules[id]? = some r) : r.Ran := by
  have follows := h.follows runsOn_course (fun _ _ => ModuleRecord.LinkMove.runsOn) evaluate_runsOn
  refine follows.invariant ?_ (fun _ _ runs => runs.ran) (by simp) id r found
  intro q fresh evaluated
  rw [fresh.status] at evaluated
  cases evaluated

/-- A module that is not evaluated offers nothing, so a change to it takes no exports away. -/
theorem exportsOf_modified {f : ModuleRecord → ModuleRecord} (found : s.modules[id]? = some r)
    (pending : r.status ≠ .evaluated) (deps : List (String × ModuleId)) (specifier : String)
    (got : s.exportsOf deps specifier = .ok exports) :
    (s.modified id f).exportsOf deps specifier = .ok exports := by
  rw [exportsOf] at got ⊢
  split at got
  case h_1 => cases got
  case h_2 dep linked =>
    obtain ⟨q, foundDep, exported⟩ := namespaceOf_eq_ok.1 got
    have other : dep ≠ id := by
      rintro rfl
      cases found.symm.trans foundDep
      exact pending exported.1
    have same := (onlyAt_modified s id f).other dep other
    exact namespaceOf_eq_ok.2 ⟨q, same.trans foundDep, exported⟩

/-- An evaluation that succeeds has run the body over what its dependencies export then. -/
theorem evaluate_publishes (found : s.modules[id]? = some r) (source : r.body = .source script)
    (linked : r.status = .linked) (run : (evaluate id).run s = (.ok (), t)) :
    ∃ exports, (namespaceOf id).run t = (.ok exports, t) ∧
      script.Publishes (s.globals r.context) (t.exportsOf r.deps) exports := by
  have contexts : t.contexts = s.contexts := by
    have kept := contexts_stepwise.evaluate id s
    rwa [run] at kept
  rw [run_evaluate] at run
  cases evaluateWithin_result run with
  | done found' status =>
    cases found.symm.trans found'
    rw [linked] at status
    simp at status
  | @evaluated _ exports u found' _ deps ran =>
    cases found.symm.trans found'
    have marked := kept_of_evaluateDeps found' deps
    have own := getElem?_modified marked ({ · with exports, status := .evaluated })
    refine ⟨exports, run_namespaceOf_of_exports own ⟨rfl, rfl⟩, ?_⟩
    rw [runModule, source] at ran
    have globals : u.globals r.context = s.globals r.context := globals_congr contexts r.context
    have publishes := Script.run_publishes ran
    rw [globals] at publishes
    exact publishes.mono fun specifier found => exportsOf_modified marked (by simp) r.deps specifier

theorem Reaches.publishes (h : Reaches {} s) (found : s.modules[id]? = some r)
    (source : r.body = .source script) (taken : (namespaceOf id).run s = (.ok exports, t)) :
    ∃ u : State, script.Publishes (u.globals r.context) (u.exportsOf r.deps) exports := by
  obtain ⟨q, found', evaluated, rfl⟩ := namespaceOf_eq_ok.1 (congrArg Prod.fst taken)
  cases found.symm.trans found'
  obtain ⟨u, ran⟩ := h.ran found evaluated script source
  exact ⟨u, Script.run_publishes ran⟩

theorem Reaches.atRest (h : Reaches {} s) : s.AtRest := by
  have moves : Follows ModuleRecord.Moves {} s :=
    h.follows ModuleRecord.moves_course (fun _ _ move => .single (.inl move))
      (evaluate_follows ModuleRecord.moves_course fun _ _ move => .single (.inr move))
  exact moves.atRest nofun

/-- Between operations, a module that is evaluated with success has a namespace. -/
theorem evaluated_of_evaluate (rest : s.AtRest) (found : s.modules[id]? = some r)
    (run : (evaluate id).run s = (.ok (), t)) : t.Evaluated id := by
  have linked : r.status ≠ .unlinked := by
    intro unlinked
    rw [run_evaluate] at run
    cases evaluateWithin_result run with
    | done found' status =>
      cases found.symm.trans found'
      simp [unlinked] at status
    | evaluated found' linked =>
      cases found.symm.trans found'
      cases unlinked.symm.trans linked
  rcases evaluate_ends rest found linked run with ⟨_, evaluated⟩ | ⟨_, failed, _⟩
  · exact evaluated
  · cases failed

theorem source_of_evaluate (found : s.modules[id]? = some r) (source : r.body = .source script)
    (run : (evaluate id).run s = (.ok (), t)) :
    ∃ r' : ModuleRecord, t.modules[id]? = some r' ∧ r'.body = .source script := by
  have retains := retains_stepwise.evaluate id s
  rw [run] at retains
  obtain ⟨r', found', _, _, body⟩ := retains id r found
  rw [source] at body
  exact ⟨r', found', body.elim (fun same => same) fun same => same⟩

/-- The names of a module's namespace stand in its text. An evaluation of a linked module that
succeeds publishes what its script says, over the globals of its context and the exports of the
modules it is linked to. So does, at whatever time it was evaluated, every module of an engine whose
namespace is to be had, as it is after each evaluation that succeeds; and two modules of one script
have the same names in the same order, in whatever engines, contexts and links. -/
theorem export_names :
    (∀ (s t : State) (id : ModuleId) (r : ModuleRecord) (script : Script),
      s.modules[id]? = some r → r.body = .source script → r.status = .linked →
      (evaluate id).run s = (.ok (), t) →
        ∃ exports, (namespaceOf id).run t = (.ok exports, t) ∧
          script.Publishes (s.globals r.context) (t.exportsOf r.deps) exports) ∧
    (∀ (s : State) (id : ModuleId) (r : ModuleRecord) (script : Script), Reaches {} s →
      s.modules[id]? = some r → r.body = .source script →
        (∀ t, (evaluate id).run s = (.ok (), t) →
          ∃ exports, (namespaceOf id).run t = (.ok exports, t) ∧
            Entries.keys exports = script.exportNames) ∧
        ∀ exports, (namespaceOf id).run s = (.ok exports, s) →
          ∃ u : State, script.Publishes (u.globals r.context) (u.exportsOf r.deps) exports) ∧
    ∀ (s s' : State) (id id' : ModuleId) (r r' : ModuleRecord) (exports exports' : Fields),
      Reaches {} s → Reaches {} s' → s.modules[id]? = some r → s'.modules[id']? = some r' →
      (∃ script, r.body = .source script ∧ r'.body = .source script) →
      (namespaceOf id).run s = (.ok exports, s) → (namespaceOf id').run s' = (.ok exports', s') →
        Entries.keys exports = Entries.keys exports' := by
  refine ⟨fun s t id r script => evaluate_publishes, ?_, ?_⟩
  · intro s id r script reached found source
    refine ⟨fun t run => ?_, fun exports => reached.publishes found source⟩
    have later : Reaches {} t := by
      have step := Step.operation (s := s) (.evaluate id)
      rw [Operation.next, run] at step
      exact reached.tail step
    obtain ⟨r', found', source'⟩ := source_of_evaluate found source run
    obtain ⟨q, foundAt, evaluated⟩ := evaluated_of_evaluate reached.atRest found run
    cases found'.symm.trans foundAt
    have taken := run_namespaceOf_of_exports found' ⟨evaluated, rfl⟩
    obtain ⟨_, publishes⟩ := later.publishes found' source' taken
    exact ⟨_, taken, publishes.names⟩
  · rintro s s' id id' r r' exports exports' reached reached' found found' ⟨script, source, source'⟩
      taken taken'
    obtain ⟨_, publishes⟩ := reached.publishes found source taken
    obtain ⟨_, publishes'⟩ := reached'.publishes found' source' taken'
    rw [publishes.names, publishes'.names]

def restated : Script where
  imports := [{ specifier := "d", bindings := [.named "n" "n"] }]
  body := [.declare "a" (.ident "n") true, .exportList [("a", "b"), ("g", "a")],
    .declare "a" (.array [.ident "g"]) false, .exportList [("a", "b")], .exportDefault (.ident "n")]

def restatedText : String :=
  "import \x7bn\x7d from 'd'; export let a = n; export \x7ba as b, g as a\x7d; let a = [g]; " ++
  "export \x7ba as b\x7d; export default n"

theorem parse_restated : Script.parse restatedText = .ok restated := by cbv

def restatements (b : Build) : List Operation :=
  [.setGlobal "one" "g" (.int 10), .setGlobal "two" "g" .null,
    .synthetic ["n"] { exports := [("n", .int 1)] } none,
    .synthetic ["n"] { exports := [("n", .str "n")] } none,
    .source b (.text restatedText) none (some "one"),
    .source b (.text restatedText) none (some "two"),
    .link (.ofTable [("d", 0)]) 2, .link (.ofTable [("d", 1)]) 3]

theorem after_restatements (b : Build) :
    ∃ events, after {} (restatements b) =
      { modules := [
          { body := .synthetic ["n"] (some { exports := [("n", .int 1)] }), context := none,
            status := .linked },
          { body := .synthetic ["n"] (some { exports := [("n", .str "n")] }), context := none,
            status := .linked },
          { body := .source restated, context := some "one", status := .linked,
            deps := [("d", 0)] },
          { body := .source restated, context := some "two", status := .linked,
            deps := [("d", 1)] }]
        contexts := [("one", [("g", .int 10)]), ("two", [("g", .null)])]
        events } := by
  simp only [after, restatements, List.foldl_cons, List.foldl_nil, next_source parse_restated]
  exact ⟨_, rfl⟩

/-- The modules have one script, and the same names with different values. -/
theorem export_names_restated :
    let s := after {} (restatements (.ofVersion "14.0.0" 0))
    let t := s.after [.evaluate 2]
    let u := t.after [.evaluate 3]
    let exports : Fields := [("a", .int 10), ("b", .array [.int 10]), ("default", .int 1)]
    let exports' : Fields := [("a", .null), ("b", .array [.null]), ("default", .str "n")]
    (evaluate 2).run s = (.ok (), t) ∧ (evaluate 3).run t = (.ok (), u) ∧
      restated.Publishes (s.globals (some "one")) (t.exportsOf [("d", 0)]) exports ∧
      (namespaceOf 2).run u = (.ok exports, u) ∧ (namespaceOf 3).run u = (.ok exports', u) ∧
      Entries.keys exports = restated.exportNames ∧
      Entries.keys exports = Entries.keys exports' := by
  intro s t u exports exports'
  obtain ⟨events, start⟩ := after_restatements (.ofVersion "14.0.0" 0)
  have reached : Reaches {} s := reaches_after {} _
  have later : Reaches {} u := (reached.trans (reaches_after s _)).trans (reaches_after t _)
  have first : (evaluate 2).run s = (.ok (), t) := by
    simp only [t, s, start]
    rfl
  have second : (evaluate 3).run t = (.ok (), u) := by
    simp only [u, t, s, start]
    rfl
  have evaluated : (namespaceOf 2).run t = (.ok exports, t) := by
    simp only [t, s, start]
    rfl
  have taken : (namespaceOf 2).run u = (.ok exports, u) := by
    simp only [u, t, s, start]
    rfl
  have taken' : (namespaceOf 3).run u = (.ok exports', u) := by
    simp only [u, t, s, start]
    rfl
  have source : ∃ r : ModuleRecord, u.modules[2]? = some r ∧ r.body = .source restated := by
    simp only [u, t, s, start]
    exact ⟨_, rfl, rfl⟩
  have source' : ∃ r : ModuleRecord, u.modules[3]? = some r ∧ r.body = .source restated := by
    simp only [u, t, s, start]
    exact ⟨_, rfl, rfl⟩
  obtain ⟨r, found, body⟩ := source
  obtain ⟨r', found', body'⟩ := source'
  obtain ⟨publishes, static, agree⟩ := export_names
  have published :
      restated.Publishes (s.globals (some "one")) (t.exportsOf [("d", 0)]) exports := by
    have own : s.modules[2]? = some
        { body := .source restated, context := some "one", status := .linked,
          deps := [("d", 0)] } := by
      simp only [s, start]
      rfl
    obtain ⟨_, taken, published⟩ := publishes s t 2 _ restated own rfl rfl first
    cases taken.symm.trans evaluated
    exact published
  obtain ⟨_, names⟩ := (static u 2 r restated later found body).2 exports taken
  exact ⟨first, second, published, taken, taken', names.names,
    agree u u 2 3 r r' exports exports' later later found found' ⟨_, body, body'⟩ taken taken'⟩

end State

end CodeCache
