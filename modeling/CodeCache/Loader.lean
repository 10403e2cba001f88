import CodeCache.Config.File
import CodeCache.Engine.Passes
import CodeCache.Engine.State
import CodeCache.Storage

/-! # Loading blobs

A run patches the header of a blob, makes a module from the blob and the placeholder of the recorded
length, links it and evaluates it; the first failure ends it. An import that is a blob is loaded by
a run of its own, in the context of the importing module. The paths that are being loaded form a
chain, and an import that leads back into the chain fails. Runs share no modules.

An import that is no blob stands for a package. Its whole value is the default export, and the
entries of an object are exported by name too. An entry called `default` gives way to the whole
value. -/

namespace CodeCache

structure Package where
  whole : Value
  named : Fields

namespace Package

def ofValue (v : Value) : Package := ⟨v, v.fields⟩

def others (p : Package) : Fields := p.named.filter (·.1 ≠ "default")

def exportNames (p : Package) : List String := "default" :: Entries.keys p.others

def setup (p : Package) : Setup := { exports := ("default", p.whole) :: p.others }

end Package

structure Packages where
  answer : String → Except LoadError Package

namespace Packages

def ofTable (table : Fields) : Packages where
  answer specifier :=
    match Entries.get? table specifier with
    | some v => .ok (.ofValue v)
    | none => .error (.resolution specifier s!"Cannot find module '{specifier}'")

instance : Coe Fields Packages := ⟨ofTable⟩

end Packages

def Package.require (known : Packages) (specifier : String) : Action Package := do
  modify fun s => { s with requests := s.requests ++ [specifier] }
  match known.answer specifier with
  | .ok package => return package
  | .error e => throw e

structure Loader where
  build : Build
  config : Config
  packages : Packages
  storage : Storage

inductive BlobOrigin where
  | bytes (blob : Bytes)
  | path (p : Path)

namespace Loader

def readBlob (l : Loader) (p : Path) : Action Bytes :=
  match l.storage.read p with
  | .ok content => return content
  | .error e => throw (.storage e)

def placeholderFor (blob : Bytes) : Action Placeholder :=
  match Placeholder.ofBlob blob with
  | .ok p => return p
  | .error e => throw (.header e)

def patch (l : Loader) (blob : Bytes) : Action (Option Patch.Recipe × Bytes) := do
  match Version.parse? l.build.version with
  | none => throw (.version l.build.version)
  | some v =>
    let reference ← State.compile l.build l.config.referenceSource
    return l.config.table.patch v blob reference

/-- Makes the module of a patched blob. A refused blob leaves the module of its placeholder
behind. -/
def openPatched (l : Loader) (origin : Option Path) (context : Option String) (blob : Bytes) :
    Action ModuleId := do
  let placeholder ← placeholderFor blob
  let id ← State.sourceModule l.build (.placeholder placeholder) (some blob) context
  if (← State.moduleAt id).rejection.isSome then
    throw (.cacheRejected origin)
  return id

def openBlob (l : Loader) (origin : Option Path) (context : Option String) (blob : Bytes) :
    Action ModuleId := do
  let (_, blob) ← l.patch blob
  l.openPatched origin context blob

def finish (resolve : State.Resolver) (id : ModuleId) : Action ModuleId := do
  State.link resolve id
  State.evaluate id
  return id

def runBlob (l : Loader) (resolve : State.Resolver) (origin : Option Path) (context : Option String)
    (blob : Bytes) : Action ModuleId := do
  finish resolve (← l.openBlob origin context blob)

def resolveImport (l : Loader) (runImport : Option String → Path → Action ModuleId) :
    State.Resolver := fun specifier referrer => do
  let context := (← State.moduleAt referrer).context
  if l.config.isBytecode specifier then runImport context (l.config.blobPath specifier)
  else
    let package ← Package.require l.packages specifier
    State.syntheticModule package.exportNames package.setup context

/-- Loads the blob at a path while `importers` are being loaded, at a bounded depth. -/
def runPathWithin (l : Loader) :
    (depth : Nat) → (importers : List Path) → Option String → Path → Action ModuleId
  | 0, _, _, _ => throw (.link .tooDeep)
  | depth + 1, importers, context, p => do
    let chain := importers ++ [p]
    if importers.any (·.same p) then
      throw (.link (.importCycle chain))
    let blob ← l.readBlob p
    l.runBlob (l.resolveImport (l.runPathWithin depth chain)) (some p) context blob

/-- Loads the blob at a path. The paths of a chain are different and name files, so that the bound
on the depth is never reached. -/
def runPath (l : Loader) (context : Option String) (p : Path) : Action ModuleId :=
  l.runPathWithin l.storage.pathBound [] context p

def run (l : Loader) (context : Option String) : BlobOrigin → Action ModuleId
  | .bytes blob => l.runBlob (l.resolveImport l.runPath) none context blob
  | .path p => l.runPath context p

def runNamespace (l : Loader) (context : Option String) (origin : BlobOrigin) : Action Fields := do
  State.namespaceOf (← l.run context origin)

def instantiate (l : Loader) (p : Path) : Action (Option Value) := do
  return Entries.get? (← l.runNamespace none (.path p)) "default"

def runSource (l : Loader) (source : String) : Action Fields := do
  l.runNamespace none (.bytes (← State.compile l.build source))

def compileFile (l : Loader) (p : Path) : Action Bytes :=
  match l.storage.readText p with
  | .ok source => State.compile l.build source
  | .error e => throw (.storage e)

end Loader

end CodeCache
