import CodeCache.Number
import CodeCache.Value

/-! # Scripts

The module language: imports, which are hoisted, and statements in source order. An expression is a
literal, a name or a member of another expression. There are no operators and no functions.

Names are looked up in a scope. An object keeps the last value of a repeated property in the place
of the first one. A double that is no finite number becomes null. A missing member of an object is
null, as is every member of a value that has none, except that null itself may not be read from. -/

namespace CodeCache

inductive Expr where
  | null
  | bool (b : Bool)
  | int (i : Int64)
  | float (x : Number.Binary64)
  | str (s : String)
  | array (items : List Expr)
  | object (properties : List (String × Expr))
  | ident (name : String)
  | member (target : Expr) (key : String)
deriving Repr, Inhabited

inductive Binding where
  | defaultExport (localName : String)
  | named (imported localName : String)
  | everything (localName : String)
deriving DecidableEq, Repr

structure Import where
  specifier : String
  bindings : List Binding
deriving DecidableEq, Repr

/-- An export list has pairs of a local and the name that it is exported under. -/
inductive Stmt where
  | declare (name : String) (init : Expr) (exported : Bool)
  | exportDefault (value : Expr)
  | exportList (names : List (String × String))
  | throw (value : Expr)
  | expr (value : Expr)
deriving Repr, Inhabited

structure Script where
  imports : List Import := []
  body : List Stmt := []
deriving Repr, Inhabited

/-- Import specifiers in order of first appearance, without repeats. -/
def Script.specifiers (s : Script) : List String :=
  s.imports.foldl (fun seen i => if i.specifier ∈ seen then seen else seen ++ [i.specifier]) []

inductive EvalError where
  | undefinedName (name : String)
  | memberOfNull (key : String)
deriving DecidableEq, Repr

def EvalError.message : EvalError → String
  | undefinedName name => s!"ReferenceError: {name} is not defined"
  | memberOfNull key => s!"TypeError: Cannot read properties of null (reading '{key}')"

abbrev Scope := String → Option Value

namespace Expr

def memberOf (key : String) : Value → Except EvalError Value
  | .object entries => .ok ((Entries.get? entries key).getD .null)
  | .null => .error (.memberOfNull key)
  | _ => .ok .null

mutual
def eval (scope : Scope) : Expr → Except EvalError Value
  | .null => .ok .null
  | .bool b => .ok (.bool b)
  | .int i => .ok (.int i.toInt)
  | .float x => .ok (if x.isFinite then .float x else .null)
  | .str s => .ok (.str s)
  | .array items => do return .array (← evalItems scope items)
  | .object properties => do return .object (← evalProperties scope [] properties)
  | .ident name =>
    match scope name with
    | some v => .ok v
    | none => .error (.undefinedName name)
  | .member target key => do memberOf key (← eval scope target)
def evalItems (scope : Scope) : List Expr → Except EvalError (List Value)
  | [] => .ok []
  | e :: es => do
    let v ← eval scope e
    return v :: (← evalItems scope es)
def evalProperties (scope : Scope) (done : Fields) : List (String × Expr) → Except EvalError Fields
  | [] => .ok done
  | (key, e) :: ps => do
    let v ← eval scope e
    evalProperties scope (done.insert key v) ps
end

end Expr

end CodeCache
