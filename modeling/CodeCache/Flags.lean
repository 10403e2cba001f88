import CodeCache.Config.File
import CodeCache.Error
import CodeCache.Header

/-! # Engine flags

Blobs are complete only if the engine compiles every function at once, and stay so only if it never
drops compiled code. Both are flags of the whole process: the first engine whose version is
understood gets them, and after that no engine does. -/

namespace CodeCache

namespace Flags

def noLazy : String := "--no-lazy"

def noFlushBytecode : String := "--no-flush-bytecode"

def forVersion (v : Version) (c : Config) : List String :=
  if c.flushBytecodeMinMajor ≤ v.major then [noLazy, noFlushBytecode] else [noLazy]

end Flags

structure FlagReport where
  version : Version
  flags : List String
deriving DecidableEq, Repr

/-- The answer to a call, the flags that it sets on the engine, and the report of the process after
it. -/
structure Flags.Outcome where
  answer : Except LoadError FlagReport
  set : List String
  process : Option FlagReport

def Flags.setOnce (process : Option FlagReport) (version : String) (c : Config) : Flags.Outcome :=
  match process with
  | some report => ⟨.ok report, [], process⟩
  | none =>
    match Version.parse? version with
    | none => ⟨.error (.version version), [], none⟩
    | some v =>
      let report := ⟨v, Flags.forVersion v c⟩
      ⟨.ok report, report.flags, some report⟩

end CodeCache
