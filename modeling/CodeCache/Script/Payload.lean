import CodeCache.Bytes
import CodeCache.Script.Basic
import CodeCache.Text

/-! # Script payloads

The bytes that stand for a script in a blob. Numbers have the low byte first. A sequence or text is
preceded by its length in eight bytes, an alternative by its number in four bytes, a truth value is
the byte zero or one, integers and doubles take eight bytes, and the parts of a record follow each
other. Reading returns the bytes that are left and refuses what writing does not produce. -/

namespace CodeCache.Payload

open Number (Binary64)

def tag (n : Nat) : Bytes := Bytes.ofNat 4 n

def size (n : Nat) : Bytes := Bytes.ofNat 8 n

def text (s : String) : Bytes :=
  let bs := Text.Utf8.encode s
  size bs.length ++ bs

def truth (b : Bool) : Bytes := [if b then 1 else 0]

def list {α : Type} (encode : α → Bytes) (xs : List α) : Bytes :=
  size xs.length ++ xs.flatMap encode

mutual
def expr : Expr → Bytes
  | .null => tag 0
  | .bool b => tag 1 ++ truth b
  | .int i => tag 2 ++ Bytes.ofNat 8 i.toUInt64.toNat
  | .float x => tag 3 ++ Bytes.ofNat 8 x.bits.toNat
  | .str s => tag 4 ++ text s
  | .array es => tag 5 ++ size es.length ++ items es
  | .object ps => tag 6 ++ size ps.length ++ properties ps
  | .ident name => tag 7 ++ text name
  | .member e key => tag 8 ++ expr e ++ text key
def items : List Expr → Bytes
  | [] => []
  | e :: es => expr e ++ items es
def properties : List (String × Expr) → Bytes
  | [] => []
  | (key, e) :: ps => text key ++ expr e ++ properties ps
end

def binding : Binding → Bytes
  | .defaultExport name => tag 0 ++ text name
  | .named imported name => tag 1 ++ text imported ++ text name
  | .everything name => tag 2 ++ text name

def importDecl (i : Import) : Bytes := text i.specifier ++ list binding i.bindings

def stmt : Stmt → Bytes
  | .declare name init exported => tag 0 ++ text name ++ expr init ++ truth exported
  | .exportDefault e => tag 1 ++ expr e
  | .exportList pairs => tag 2 ++ list (fun p => text p.1 ++ text p.2) pairs
  | .throw e => tag 3 ++ expr e
  | .expr e => tag 4 ++ expr e

def encode (s : Script) : Bytes := list importDecl s.imports ++ list stmt s.body

/-- Reads from the front of a byte string and returns what is left. -/
abbrev Reader := StateT Bytes Option

def readBytes (count : Nat) : Reader Bytes := fun bs =>
  let front := bs.take count
  if front.length = count then some (front, bs.drop count) else none

def readNat (count : Nat) : Reader Nat := Bytes.toNat <$> readBytes count

def readTag : Reader Nat := readNat 4

def readSize : Reader Nat := readNat 8

def readText : Reader String := do
  let bs ← readBytes (← readSize)
  match Text.Utf8.decode? bs with
  | some s => return s
  | none => failure

def readTruth : Reader Bool := do
  match ← readNat 1 with
  | 0 => return false
  | 1 => return true
  | _ => failure

def readMany {α : Type} (read : Reader α) : (count : Nat) → Reader (List α)
  | 0 => return []
  | count + 1 => do
    let x ← read
    return x :: (← readMany read count)

def readList {α : Type} (read : Reader α) : Reader (List α) := do readMany read (← readSize)

def readProperty (read : Reader Expr) : Reader (String × Expr) := do
  let key ← readText
  return (key, ← read)

def readExprWithin : (depth : Nat) → Reader Expr
  | 0 => failure
  | depth + 1 => do
    match ← readTag with
    | 0 => return .null
    | 1 => return .bool (← readTruth)
    | 2 => return .int (UInt64.ofNat (← readNat 8)).toInt64
    | 3 => return .float ⟨UInt64.ofNat (← readNat 8)⟩
    | 4 => return .str (← readText)
    | 5 => return .array (← readList (readExprWithin depth))
    | 6 => return .object (← readList (readProperty (readExprWithin depth)))
    | 7 => return .ident (← readText)
    | 8 =>
      let e ← readExprWithin depth
      return .member e (← readText)
    | _ => failure

/-- Each level of an expression takes four bytes or more, so their number bounds the depth. -/
def readExpr : Reader Expr := fun bs => readExprWithin (bs.length + 1) bs

def readBinding : Reader Binding := do
  match ← readTag with
  | 0 => return .defaultExport (← readText)
  | 1 =>
    let imported ← readText
    return .named imported (← readText)
  | 2 => return .everything (← readText)
  | _ => failure

def readImport : Reader Import := do
  let specifier ← readText
  return ⟨specifier, ← readList readBinding⟩

def readPair : Reader (String × String) := do
  let first ← readText
  return (first, ← readText)

def readStmt : Reader Stmt := do
  match ← readTag with
  | 0 =>
    let name ← readText
    let init ← readExpr
    return .declare name init (← readTruth)
  | 1 => return .exportDefault (← readExpr)
  | 2 => return .exportList (← readList readPair)
  | 3 => return .throw (← readExpr)
  | 4 => return .expr (← readExpr)
  | _ => failure

def readScript : Reader Script := do
  let imports ← readList readImport
  return ⟨imports, ← readList readStmt⟩

/-- The script at the front of a byte string; what follows it is ignored. -/
def decode (bs : Bytes) : Option Script := (readScript bs).map (·.1)

end CodeCache.Payload
