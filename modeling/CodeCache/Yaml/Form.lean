import CodeCache.Number
import CodeCache.Value
import CodeCache.Yaml.Layout
import CodeCache.Yaml.Node

/-! # Forms

Only plain scalars can mean anything but their text, unless a tag says what to take a scalar for.
Numbers are decimal, without leading zeros, or natural numbers in a marked radix.

A form says what is expected of a node and reads the node as a document. What a scalar means depends
on it: the same one can be a number here and a text there. An empty place is an empty collection
where one is expected. Parts that a form does not ask for are not read, except that a variant reads
everything in it since its kind may come last. References are followed no more often than a hundred
times the size of the text, and collections nest no deeper than 128. -/

namespace CodeCache.Yaml

/-- What a scalar means where nothing is said about what is expected. Natural numbers and negative
ones, among them minus zero, fit into 64 bits; a `huge` integer takes up to 128. -/
inductive Meaning where
  | null
  | bool (b : Bool)
  | natural (n : Nat)
  | negative (magnitude : Nat)
  | huge
  | real
  | text (t : String)
deriving DecidableEq, Repr

def nullWords : List String := ["null", "Null", "NULL", "~"]

def trueWords : List String := ["true", "True", "TRUE"]

def falseWords : List String := ["false", "False", "FALSE"]

def infinityWords : List String := [".inf", ".Inf", ".INF"]

def nanWords : List String := [".nan", ".NaN", ".NAN"]

def bool? (text : String) : Option Bool :=
  if text ∈ trueWords then some true else if text ∈ falseWords then some false else none

def magnitude? : List Char → Option Nat
  | '0' :: 'x' :: cs => Number.readRadix? 16 cs
  | '0' :: 'o' :: cs => Number.readRadix? 8 cs
  | '0' :: 'b' :: cs => Number.readRadix? 2 cs
  | '0' :: _ :: _ => none
  | cs => Number.readNat? cs

def natural? (text : String) : Option Nat :=
  let cs := text.toList
  magnitude? (if cs.head? = some '+' then cs.tail else cs)

def negative? (text : String) : Option Nat :=
  let cs := text.toList
  if cs.head? = some '-' then magnitude? cs.tail else none

def exponent? : List Char → Option Int
  | [] => some 0
  | c :: cs =>
    if c = 'e' ∨ c = 'E' then
      let negative := cs.head? = some '-'
      let digits := if negative ∨ cs.head? = some '+' then cs.tail else cs
      (Number.readNat? digits).map fun n => if negative then -n else n
    else none

def isDecimal (cs : List Char) : Bool :=
  let whole := cs.takeWhile Char.isDigit
  let rest := cs.dropWhile Char.isDigit
  let afterPoint := if rest.head? = some '.' then rest.tail else []
  let fraction := afterPoint.takeWhile Char.isDigit
  let rest := if rest.head? = some '.' then afterPoint.dropWhile Char.isDigit else rest
  match Number.readNat? (whole ++ fraction), exponent? rest with
  | some digits, some e => Number.Binary64.holds digits (e - fraction.length)
  | _, _ => false

/-- A number that is not written as an integer, or one that exceeds all words. -/
def isReal (text : String) : Bool :=
  let cs := text.toList
  let unsigned := if cs.head? = some '+' ∨ cs.head? = some '-' then cs.tail else cs
  text ∈ nanWords || String.ofList unsigned ∈ infinityWords || isDecimal unsigned

/-- Zeros before other digits make a text. -/
def hasLeadingZero (text : String) : Bool :=
  let cs := text.toList
  let unsigned := if cs.head? = some '+' ∨ cs.head? = some '-' then cs.tail else cs
  1 < unsigned.length && unsigned.head? = some '0' && unsigned.all Char.isDigit

def integer? (text : String) : Option Meaning :=
  match natural? text, negative? text with
  | some n, _ =>
    if n < UInt64.size then some (.natural n)
    else if n < UInt64.size * UInt64.size then some .huge
    else none
  | none, some n =>
    if n ≤ 0x8000000000000000 then some (.negative n)
    else if n ≤ 0x8000000000000000 * UInt64.size then some .huge
    else none
  | none, none => none

def plainMeaning (text : String) : Meaning :=
  if text = "" ∨ text ∈ nullWords then .null
  else
    match bool? text, integer? text with
    | some b, _ => .bool b
    | none, some m => m
    | none, none => if !hasLeadingZero text && isReal text then .real else .text text

def commonTag (name : String) : Bytes := Text.Utf8.encode ("tag:yaml.org,2002:" ++ name)

namespace Properties

def hasTag (p : Properties) (name : String) : Bool := p.tag = some (commonTag name)

/-- The name in a tag that begins with an exclamation mark, which is the mark itself if there is
nothing after it. -/
def localName? (p : Properties) : Option String :=
  match p.tag with
  | some (33 :: rest) => (Text.Utf8.decode? (if rest = [] then [33] else rest))
  | _ => none

def isLocal (p : Properties) : Bool :=
  match p.tag with
  | some (33 :: _) => true
  | _ => false

end Properties

def meaning? (p : Properties) (style : Style) (text : String) : Option Meaning :=
  if p.localName?.isSome then none
  else if p.hasTag "bool" then (bool? text).map .bool
  else if p.hasTag "int" then integer? text
  else if p.hasTag "float" then if isReal text then some .real else none
  else if p.hasTag "null" then if text ∈ nullWords then some .null else none
  else if style = .plain ∧ (p.tag = none ∨ p.isLocal) then some (plainMeaning text)
  else some (.text text)

/-- A plain scalar, or a literal one with the tag of a common type. -/
def isTyped (p : Properties) (style : Style) (name : String) : Bool :=
  style = .plain || style = .literal && p.hasTag name

/-- The nodes with anchors, of which the first one with a number counts. -/
abbrev Anchored := List (Nat × Node)

abbrev Reader (α : Type) := ReaderT Anchored (StateT Nat Option) α

/-- The first argument tells how deep collections may still nest. -/
abbrev Form := Nat → Node → Reader Document

def follow : Node → Reader Node
  | .reference id => do
    let left ← get
    guard (0 < left)
    set (left - 1)
    match (← read).lookup id with
    | some node => return node
    | none => failure
  | node => return node

def readText (n : Node) : Reader String := do
  match ← follow n with
  | .scalar _ _ text => return text
  | _ => failure

def readScalar (p : Properties) (style : Style) (text : String) : Reader (Option Meaning) :=
  match meaning? p style text with
  | none | some .huge => failure
  | m => return m

/-- What a node means where nothing is said about what is expected, or nothing if it is a collection
all of whose parts mean something. -/
def readAny : (depth : Nat) → Node → Reader (Option Meaning)
  | 0, n => do
    match ← follow n with
    | .scalar p style text => readScalar p style text
    | _ => failure
  | depth + 1, n => do
    match ← follow n with
    | .scalar p style text => readScalar p style text
    | .list p items => do
      guard p.localName?.isNone
      let _ ← items.mapM (readAny depth)
      return none
    | .table p entries => do
      guard p.localName?.isNone
      let _ ← entries.mapM fun e => do
        let _ ← readAny depth e.1
        readAny depth e.2
      return none
    | .reference _ => failure

def Meaning.document : Meaning → Document
  | null => .null
  | bool b => .bool b
  | natural n => .int n
  | negative n => .int (-n)
  | real | huge => .real true
  | text t => .text (some t)

/-- Collections are kept as empty lists. -/
def partDocument (m : Option Meaning) : Document := (m.map Meaning.document).getD (.list [])

namespace Form

def text : Form := fun _ n => return .text (some (← readText n))

def flag : Form := fun _ n => do
  match ← follow n with
  | .scalar p style text =>
    guard (isTyped p style "bool")
    (bool? text).elim failure (pure ∘ .bool)
  | _ => failure

def natural : Form := fun _ n => do
  match ← follow n with
  | .scalar p style text =>
    guard (isTyped p style "int")
    match natural? text with
    | some i => if i < UInt64.size then return .int i else failure
    | none => failure
  | _ => failure

/-- A name of a choice, which may also be written as the tag of an empty place. -/
def name : Form := fun _ n => do
  match ← follow n with
  | .scalar p style text =>
    match p.localName? with
    | none => return .text (some text)
    | some name =>
      guard (style = .plain && (text = "" || text ∈ nullWords))
      return .text (some name)
  | _ => failure

/-- Whether a scalar says that there is nothing. A tag of null must be right. -/
def isNothing? (p : Properties) (style : Style) (text : String) : Option Bool :=
  if style ≠ .plain then some false
  else if p.hasTag "null" then if text ∈ nullWords then some true else none
  else some (p.tag = none && (text = "" || text ∈ nullWords))

def optional (f : Form) : Form := fun depth n => do
  let n ← follow n
  match n with
  | .scalar p style text =>
    if ← (isNothing? p style text).elim failure pure then return .null else f depth n
  | n => f depth n

def list (f : Form) : Form := fun depth n => do
  match ← follow n with
  | .list _ items =>
    guard (0 < depth)
    return .list (← items.mapM (f (depth - 1)))
  | .scalar _ style text =>
    guard (style = .plain && text = "")
    return .list []
  | _ => failure

def record (fields : List (String × Form)) : Form := fun depth n => do
  match ← follow n with
  | .table _ entries =>
    guard (0 < depth)
    let known ← entries.mapM fun e => do
      let key ← readText e.1
      match fields.lookup key with
      | some f => return [(some key, ← f (depth - 1) e.2)]
      | none => return []
    return .table known.flatten
  | .scalar _ style text =>
    guard (style = .plain && text = "")
    return .table []
  | _ => failure

/-- The name of the field that a key in a variant stands for, if there is one: its text, or its
number in the order of the fields. -/
def variantField (fields : List String) : Option Meaning → Reader (Option String)
  | some (.text key) => return if key ∈ fields then some key else none
  | some (.natural n) => return fields[n]?
  | _ => failure

def variantEntry (kindKey : String) (depth : Nat) (e : Node × Node) :
    Reader (String ⊕ Option Meaning × Option Meaning) := do
  let key ← readAny depth e.1
  if key = some (.text kindKey) then return .inl (← readText e.2)
  else return .inr (key, ← readAny depth e.2)

/-- The entries of a variant that its kind has fields for. A kind without fields takes any. -/
def variantFields (fields : List String) (parts : List (Option Meaning × Option Meaning)) :
    Reader (List (Option String × Document)) :=
  if fields = [] then return []
  else do
    let known ← parts.mapM fun part => do
      match ← variantField fields part.1 with
      | some field => return [(some field, partDocument part.2)]
      | none => return []
    return known.flatten

/-- A table with the kind in an entry, or the list of the kind and its fields. -/
def variant (kindKey : String) (kinds : List (String × List String)) : Form := fun depth n => do
  guard (0 < depth)
  match ← follow n with
  | .list p (kind :: items) =>
    guard p.localName?.isNone
    let kind ← readText kind
    return .list (.text (some kind) :: (← items.mapM (readAny (depth - 1))).map partDocument)
  | .table p entries =>
    guard p.localName?.isNone
    let parts ← entries.mapM (variantEntry kindKey (depth - 1))
    match parts.filterMap Sum.getLeft? with
    | [kind] =>
      let fields ← (kinds.lookup kind).elim failure pure
      let known ← variantFields fields (parts.filterMap Sum.getRight?)
      return .table ((some kindKey, .text (some kind)) :: known)
    | _ => failure
  | _ => failure

def greatestDepth : Nat := 128

def read? (f : Form) (text : String) : Option Document := do
  let root ← Node.ofTokens? (← tokens? (← source? text))
  let (d, _) ← ((f greatestDepth root).run root.anchored).run (100 * root.size)
  return d

end Form

end CodeCache.Yaml
