import CodeCache.CommandLine.Run

/-! # The program

Runs a command on the files of the machine. -/

namespace CodeCache

def storageErrorOf : IO.Error → StorageError
  | .noFileOrDirectory .. => .noEntry
  | .alreadyExists .. => .entryExists
  | .inappropriateType _ 20 _ => .notDirectory
  | .inappropriateType _ 21 _ => .isDirectory
  | e => .other (toString e)

def attempt {α : Type} (act : IO α) : IO (Except StorageError α) := do
  match ← act.toBaseIO with
  | .ok a => return .ok a
  | .error e => return .error (storageErrorOf e)

/-- Something is present if it can be opened. -/
def machineAccess : Access IO where
  read p := attempt do return (← IO.FS.readBinFile p.text).toList
  write p content := attempt (IO.FS.writeBinFile p.text ⟨content.toArray⟩)
  isPresent p := do
    match ← (IO.FS.Handle.mk p.text .read).toBaseIO with
    | .ok _ => return true
    | .error _ => return false

end CodeCache

def main (args : List String) : IO UInt32 := do
  let outcome ← CodeCache.CommandLine.run CodeCache.machineAccess args
  IO.print outcome.output
  IO.eprint outcome.errors
  return outcome.exitStatus
