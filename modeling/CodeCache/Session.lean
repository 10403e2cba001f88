import CodeCache.Loader

/-! # Sessions

A loader together with the state of its engine, the flags set on the engine and a bundler. Compiled
files can be written back, which changes the storage that later runs read. -/

namespace CodeCache

inductive Bundler where
  | returns (source : String)
  | fails (message : String)
deriving DecidableEq, Repr

structure Session where
  loader : Loader
  engine : State := {}
  flags : List String := []
  bundler : Option Bundler := none
  bundled : List (Path × BundleOptions) := []

namespace Session

/-- A computation on a session. What it did stays done when it fails. -/
abbrev Run := ExceptT LoadError (StateM Session)

def act {α : Type} (f : Loader → Action α) : Run α := fun s =>
  let (outcome, engine) := (f s.loader).run s.engine
  (outcome, { s with engine })

def compileText (source : String) : Run Bytes := act fun l => State.compile l.build source

def compileFile (p : Path) : Run Bytes := act fun l => l.compileFile p

def write (p : Path) (content : Bytes) : Run Unit := do
  let s ← get
  let (outcome, storage) := s.loader.storage.write p content
  set { s with loader := { s.loader with storage } }
  match outcome with
  | .ok () => return
  | .error e => throw (.storage e)

def compileFileTo (p output : Path) : Run Bytes := do
  let blob ← compileFile p
  write output blob
  return blob

def callBundler (entry : Path) : Bundler → Run String
  | .returns source => do
    called
    return source
  | .fails message => do
    called
    throw (.bundle message)
where
  called : Run Unit :=
    modify fun s => { s with bundled := s.bundled ++ [(entry, s.loader.config.bundle)] }

def bundle (entry : Path) : Run Bytes := do
  match (← get).bundler with
  | none => throw (.bundle "no bundler configured")
  | some b => compileText (← callBundler entry b)

def read (p : Path) : Run Bytes := act fun l => l.readBlob p

def readText (p : Path) : Run String := do
  let s ← get
  match s.loader.storage.readText p with
  | .ok text => return text
  | .error e => throw (.storage e)

def setFlag (flag : String) : Run Unit := modify fun s => { s with flags := s.flags ++ [flag] }

end Session

end CodeCache
