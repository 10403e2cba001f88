import CodeCache.Engine.State
import CodeCache.Json

/-! # Linking and evaluating

Linking a module finds a module for each of its specifiers, in order, links that one too and records
it. Within one pass a specifier is resolved once, wherever it occurs. A module whose imports cannot
be linked is unlinked again.

A module is evaluated after the modules it imports. Its imports are bound in order of declaration,
then its statements run in order over the locals and, behind them, the globals of its context. A
synthetic module begins with all its exports null and sets them. -/

namespace CodeCache.State

abbrev Resolver := String → ModuleId → Action ModuleId

abbrev Seen := Entries ModuleId

/-- Resolves a specifier unless that was done before in this pass. -/
def resolveOnce (resolve : Resolver) (referrer : ModuleId) (seen : Seen) (specifier : String) :
    Action ModuleId :=
  match Entries.get? seen specifier with
  | some id => return id
  | none => do
    record (.resolve specifier referrer)
    resolve specifier referrer

def linkImports (resolve : Resolver) (linkDep : ModuleId → Seen → Action Seen)
    (referrer : ModuleId) : List String → Seen → Action (Seen × List (String × ModuleId))
  | [], seen => return (seen, [])
  | specifier :: rest, seen => do
    let dep ← resolveOnce resolve referrer seen specifier
    let seen ← linkDep dep (seen.insert specifier dep)
    let (seen, deps) ← linkImports resolve linkDep referrer rest seen
    return (seen, (specifier, dep) :: deps)

def linkWithin (resolve : Resolver) : (depth : Nat) → ModuleId → Seen → Action Seen
  | 0, _, _ => throw (.link .tooDeep)
  | depth + 1, id, seen => do
    let r ← moduleAt id
    match r.status with
    | .unlinked =>
      setStatus id .linking
      try
        let (seen, deps) ←
          linkImports resolve (linkWithin resolve depth) id r.body.specifiers seen
        update id ({ · with deps, status := .linked })
        pure seen
      catch e =>
        setStatus id .unlinked
        throw e
    | .errored message => throw (.link (.failedBefore message))
    | _ => return seen

/-- Links a module and everything it imports. A module is entered only once, so that the depth stays
within the number of modules, and modules made on the way import nothing that is not linked. -/
def link (resolve : Resolver) (id : ModuleId) : Action Unit := do
  record (.link id)
  let depth := (← get).modules.length + 2
  let _ ← linkWithin resolve depth id []

end CodeCache.State

namespace CodeCache

namespace Script

structure Frame where
  locals : Fields
  exports : Fields := []

def Frame.scope (f : Frame) (globals : Scope) : Scope :=
  fun name => (Entries.get? f.locals name).orElse fun _ => globals name

def evaluated (globals : Scope) (f : Frame) (e : Expr) : Except LoadError Value :=
  match e.eval (f.scope globals) with
  | .ok v => .ok v
  | .error e => .error (.evaluation (.expression e))

def exportLocals (globals : Scope) (f : Frame) : List (String × String) → Except LoadError Frame
  | [] => .ok f
  | (name, exported) :: rest =>
    match f.scope globals name with
    | some v => exportLocals globals { f with exports := f.exports.insert exported v } rest
    | none => .error (.evaluation (.undefinedLocal name))

/-- The text of a thrown value: a string as it is, another value as JSON. -/
def thrownText : Value → String
  | .str s => s
  | v => String.ofList (Json.compact v)

def runStmt (globals : Scope) (f : Frame) : Stmt → Except LoadError Frame
  | .declare name init exported => do
    let v ← evaluated globals f init
    return {
      locals := f.locals.insert name v
      exports := if exported then f.exports.insert name v else f.exports }
  | .exportDefault e => do
    let v ← evaluated globals f e
    return { f with exports := f.exports.insert "default" v }
  | .exportList names => exportLocals globals f names
  | .throw e => do
    let v ← evaluated globals f e
    throw (.evaluation (.uncaught (thrownText v)))
  | .expr e => do
    let _ ← evaluated globals f e
    return f

def runBody (globals : Scope) (locals : Fields) (body : List Stmt) : Except LoadError Fields := do
  return (← body.foldlM (runStmt globals) { locals }).exports

def exportOf (exports : Fields) (specifier name : String) : Except LoadError Value :=
  match Entries.get? exports name with
  | some v => .ok v
  | none => .error (.link (.missingExport specifier name))

def bind (specifier : String) (exports locals : Fields) : Binding → Except LoadError Fields
  | .defaultExport name => do return locals.insert name (← exportOf exports specifier "default")
  | .named imported name => do return locals.insert name (← exportOf exports specifier imported)
  | .everything name => .ok (locals.insert name (.object exports))

def bindImport (exportsOf : String → Except LoadError Fields) (locals : Fields) (i : Import) :
    Except LoadError Fields := do
  let exports ← exportsOf i.specifier
  i.bindings.foldlM (bind i.specifier exports) locals

def run (globals : Scope) (exportsOf : String → Except LoadError Fields) (s : Script) :
    Except LoadError Fields := do
  let locals ← s.imports.foldlM (bindImport exportsOf) []
  runBody globals locals s.body

end Script

namespace Setup

def setAll (exports : Fields) : List (String × Value) → Except LoadError Fields
  | [] => .ok exports
  | (name, v) :: rest =>
    if exports.contains name then setAll (exports.insert name v) rest
    else .error (.evaluation (.undeclaredExport name))

def run (names : List String) (setup : Option Setup) : Except LoadError Fields := do
  let exports := Entries.ofList (names.map (·, Value.null))
  match setup with
  | none => return exports
  | some setup =>
    let exports ← setAll exports setup.exports
    match setup.failure with
    | some message => throw (.evaluation (.setup message))
    | none => return exports

end Setup

namespace State

def exportsOf (s : State) (deps : List (String × ModuleId)) (specifier : String) :
    Except LoadError Fields :=
  match Entries.get? deps specifier with
  | none => .error (.link (.unlinkedImport specifier))
  | some id => ((namespaceOf id).run s).1

def runModule (s : State) (r : ModuleRecord) : Except LoadError Fields :=
  match r.body with
  | .source script => script.run (s.globals r.context) (s.exportsOf r.deps)
  | .placeholder _ => .ok []
  | .synthetic names setup => Setup.run names setup

def evaluateWithin : (depth : Nat) → ModuleId → Action Unit
  | 0, _ => throw (.evaluation .tooDeep)
  | depth + 1, id => do
    let r ← moduleAt id
    match r.status with
    | .linked =>
      update id fun r => { r with status := .evaluating, body := r.body.begun }
      try
        r.deps.forM fun dep => evaluateWithin depth dep.2
        let exports ← liftExcept (runModule (← get) r)
        update id ({ · with exports, status := .evaluated })
      catch e =>
        setStatus id (.errored e.message)
        throw e
    | .evaluated | .evaluating => return
    | .errored message => throw (.evaluation (.failedBefore message))
    | .unlinked | .linking => throw (.link .notLinked)
where
  liftExcept (outcome : Except LoadError Fields) : Action Fields :=
    match outcome with
    | .ok exports => return exports
    | .error e => throw e

/-- Evaluates a module and, before it, everything it imports. A module is entered only once, so that
the depth stays within the number of modules. -/
def evaluate (id : ModuleId) : Action Unit := do
  record (.evaluate id)
  evaluateWithin ((← get).modules.length + 1) id

end State

end CodeCache
