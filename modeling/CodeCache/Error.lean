import CodeCache.Header
import CodeCache.Script.Basic
import CodeCache.Script.Parser
import CodeCache.Storage
import CodeCache.Text

/-! # Load errors

A module is linked and then evaluated, each at most once. Evaluation ends well or leaves the module
in error, with the message of what went wrong. What can go wrong between a blob and its namespace is
listed by cause, and every cause has one message. -/

namespace CodeCache

inductive Status where
  | unlinked
  | linking
  | linked
  | evaluating
  | evaluated
  | errored (message : String)
deriving DecidableEq, Repr

def Status.describe : Status → String
  | unlinked => "Unlinked"
  | linking => "Linking"
  | linked => "Linked"
  | evaluating => "Evaluating"
  | evaluated => "Evaluated"
  | errored message => s!"Errored({Text.quoted message})"

abbrev ModuleId := Nat

/-- A cycle is told as the chain of importers with the repeated path at its end. -/
inductive LinkFault where
  | importCycle (chain : List Path)
  | missingExport (specifier name : String)
  | unlinkedImport (specifier : String)
  | notLinked
  | failedBefore (message : String)
  | tooDeep
deriving DecidableEq, Repr

def LinkFault.message : LinkFault → String
  | importCycle chain => "bytecode import cycle: " ++ " -> ".intercalate (chain.map (·.text))
  | missingExport specifier name =>
    s!"SyntaxError: The requested module '{specifier}' does not provide an export named '{name}'"
  | unlinkedImport specifier => s!"unlinked import '{specifier}'"
  | notLinked => "module must be linked before evaluation"
  | failedBefore message => message
  | tooDeep => "nesting too deep"

inductive EvaluationFault where
  | expression (e : EvalError)
  | undefinedLocal (name : String)
  | undeclaredExport (name : String)
  | uncaught (text : String)
  | unavailable (status : Status)
  | failedBefore (message : String)
  | setup (message : String)
  | tooDeep
deriving DecidableEq, Repr

def EvaluationFault.message : EvaluationFault → String
  | expression e => e.message
  | undefinedLocal name => s!"SyntaxError: Export '{name}' is not defined in module"
  | undeclaredExport name => s!"ReferenceError: Export '{name}' is not defined in module"
  | uncaught text => s!"Uncaught {text}"
  | unavailable status => s!"module namespace is not available in state {status.describe}"
  | failedBefore message => message
  | setup message => message
  | tooDeep => "nesting too deep"

inductive LoadError where
  | storage (e : StorageError)
  | header (e : HeaderError)
  | version (text : String)
  | cacheRejected (origin : Option Path)
  | resolution (specifier message : String)
  | compile (e : Script.SyntaxError)
  | link (fault : LinkFault)
  | evaluation (fault : EvaluationFault)
  | bundle (message : String)
  | configuration
  | noModule (id : ModuleId)
deriving DecidableEq, Repr

def LoadError.message : LoadError → String
  | storage e => s!"IO error: {e.message}"
  | header e => e.message
  | version text => s!"Invalid engine version string '{text}'"
  | cacheRejected none => "[VM] Cached data rejected: <bytes>"
  | cacheRejected (some path) => s!"[VM] Cached data rejected: {path.text}"
  | resolution specifier message => s!"Cannot resolve module '{specifier}': {message}"
  | compile e => s!"Compile error: SyntaxError: {e.message}"
  | link fault => s!"Link error: {fault.message}"
  | evaluation fault => s!"Evaluation error: {fault.message}"
  | bundle message => s!"Bundle error: {message}"
  | configuration => "Configuration error"
  | noModule id => s!"no module {id}"

end CodeCache
