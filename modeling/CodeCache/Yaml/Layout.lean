import CodeCache.Value
import CodeCache.Yaml.Scanner

/-! # Layout

Outside of brackets a collection is opened by the first key or dash at a greater column and closed
by a line at a smaller one. Whether a node is a key is only known at the colon after it, on the same
line and near enough, so the mark of a key is put before tokens that were read already. Each token
therefore has a slot of its own, which can take further tokens before it. -/

namespace CodeCache.Yaml

structure PossibleKey where
  slot : Nat
  start : Place
  required : Bool
deriving DecidableEq, Repr

/-- The columns of the open block collections and what may be a key around the open brackets are
listed from the inside out. -/
structure Layout where
  slots : Array (List Token) := #[]
  columns : List Nat := []
  key : Option PossibleKey := none
  outerKeys : List (Option PossibleKey) := []
  keyAllowed : Bool := true
  anchors : Entries Nat := []
deriving Repr

namespace PossibleKey

/-- A key stands on one line with its colon, and at most 1024 bytes before it. -/
def isStale (k : PossibleKey) (p : Place) : Bool :=
  k.start.line < p.line || k.start.offset + 1024 < p.offset

end PossibleKey

namespace Layout

def inFlow (l : Layout) : Bool := !l.outerKeys.isEmpty

/-- The least column of what belongs to the innermost block collection and is no part of it. -/
def least (l : Layout) : Nat := (l.columns.head?.map (· + 1)).getD 0

def add (t : Token) (l : Layout) : Layout := { l with slots := l.slots.push [t] }

def close (keep : Nat → Bool) (l : Layout) : Layout :=
  if l.inFlow then l
  else
    let closed := l.columns.takeWhile (!keep ·)
    { l with
      slots := l.slots ++ closed.map fun _ => [Token.blockEnd]
      columns := l.columns.drop closed.length }

def opensAt (column : Nat) (l : Layout) : Bool := !l.inFlow && l.columns.head?.all (· < column)

def opened (t : Token) (column : Nat) (l : Layout) : Layout :=
  if l.opensAt column then { l with columns := column :: l.columns }.add t else l

def dropKey? (l : Layout) : Option Layout :=
  if l.key.any (·.required) then none else some { l with key := none }

def dropStale? (p : Place) (l : Layout) : Option Layout :=
  let isStale := fun k : PossibleKey => k.isStale p
  if (l.key :: l.outerKeys).any (·.any fun k => isStale k && k.required) then none
  else
    let fresh := Option.filter fun k => !isStale k
    some { l with key := fresh l.key, outerKeys := l.outerKeys.map fresh }

def noteKey? (p : Place) (l : Layout) : Option Layout :=
  if l.keyAllowed then do
    let l ← l.dropKey?
    let required := !l.inFlow && l.columns.head? = some p.column
    return { l with key := some ⟨l.slots.size, p, required⟩ }
  else some l

def putKey (k : PossibleKey) (l : Layout) : Layout :=
  let opens := l.opensAt k.start.column
  { l with
    slots := l.slots.modify k.slot ((if opens then [.blockTableStart, .key] else [.key]) ++ ·)
    columns := if opens then k.start.column :: l.columns else l.columns }

def addBoundary? (t : Token) (l : Layout) : Option Layout := do
  let l ← (l.close fun _ => false).dropKey?
  return { l with keyAllowed := false }.add t

def openFlow? (t : Token) (p : Place) (l : Layout) : Option Layout := do
  let l ← l.noteKey? p
  return { l with key := none, outerKeys := l.key :: l.outerKeys, keyAllowed := true }.add t

def closeFlow? (t : Token) (l : Layout) : Option Layout := do
  let l ← l.dropKey?
  let l := { l with
    key := l.outerKeys.head?.join, outerKeys := l.outerKeys.tail, keyAllowed := false }
  return l.add t

def addSeparator? (l : Layout) : Option Layout := do
  let l ← l.dropKey?
  return { l with keyAllowed := true }.add .separator

def addEntry? (start t : Token) (p : Place) (l : Layout) : Option Layout := do
  if !l.inFlow && !l.keyAllowed then none
  let l ← (l.opened start p.column).dropKey?
  return { l with keyAllowed := t = Token.blockItem || !l.inFlow }.add t

def addValue? (p : Place) (l : Layout) : Option Layout :=
  match l.key with
  | some k => some ({ l.putKey k with key := none, keyAllowed := false }.add .value)
  | none =>
    if !l.inFlow && !l.keyAllowed then none
    else
      let l := l.opened .blockTableStart p.column
      some ({ l with keyAllowed := !l.inFlow }.add .value)

def addContent? (t : Token) (keyAllowed : Bool) (p : Place) (l : Layout) : Option Layout := do
  let l ← l.noteKey? p
  return { l with keyAllowed }.add t

/-- A name of an anchor, which ends a word or stands before one of some signs. -/
def anchorName? (s : Source) : Option (String × Source) :=
  let name := takeChars isWord s
  let rest := dropChars isWord s
  let ends := rest.head?.any fun p => p.char ∈ "?:,]\x7d%@".toList || p.char.toNat = 0x60
  if name ≠ [] ∧ (endsWord rest ∨ ends) then some (spelling name, rest) else none

/-- An anchor gets the number of the different names before it. -/
def addAnchor? (p : Place) (rest : Source) (l : Layout) : Option (Layout × Source) := do
  let (name, rest) ← anchorName? rest
  let id := l.anchors.length
  let l ← l.addContent? (.anchor id) false p
  return ({ l with anchors := l.anchors.insert name id }, rest)

def addReference? (p : Place) (rest : Source) (l : Layout) : Option (Layout × Source) := do
  let (name, rest) ← anchorName? rest
  return (← l.addContent? (.reference (← l.anchors.get? name)) false p, rest)

def addQuoted? (p : Place) (rest : Source) (l : Layout) : Option (Layout × Source) := do
  let (text, rest) ← quoted? p.char rest
  return (← l.addContent? (.scalar .quoted text) false p, rest)

def addBlock? (style : Style) (rest : Source) (l : Layout) : Option (Layout × Source) := do
  let l ← l.dropKey?
  let (text, rest) ← block? (style = .literal) l.least rest
  return ({ l with keyAllowed := true }.add (.scalar style text), rest)

def addPlain? (p : Place) (rest : Source) (l : Layout) : Option (Layout × Source) := do
  let (text, broken, rest) ← plain? l.inFlow l.least (p :: rest)
  return (← l.addContent? (.scalar .plain text) broken p, rest)

def addSign? (p : Place) (rest : Source) (l : Layout) : Option (Layout × Source) :=
  match p.char with
  | '[' => (l.openFlow? .flowListStart p).map (·, rest)
  | '\x7b' => (l.openFlow? .flowTableStart p).map (·, rest)
  | ']' => (l.closeFlow? .flowListEnd).map (·, rest)
  | '\x7d' => (l.closeFlow? .flowTableEnd).map (·, rest)
  | ',' => l.addSeparator?.map (·, rest)
  | '&' => l.addAnchor? p rest
  | '*' => l.addReference? p rest
  | '!' => do
    let (name, rest) ← tag? l.inFlow (p :: rest)
    return (← l.addContent? (.tag name) false p, rest)
  | '"' => l.addQuoted? p rest
  | '\'' => l.addQuoted? p rest
  | '|' => if l.inFlow then none else l.addBlock? .literal rest
  | '>' => if l.inFlow then none else l.addBlock? .folded rest
  | _ => none

def next? (p : Place) (rest : Source) (l : Layout) : Option (Layout × Source) :=
  let s := p :: rest
  if p.column = 0 ∧ p.char = '%' then do
    let (d, rest) ← directive? rest
    return (← l.addBoundary? (.directive d), rest)
  else if isAtMark "---" s then (l.addBoundary? .documentStart).map (·, s.drop 3)
  else if isAtMark "..." s then (l.addBoundary? .documentEnd).map (·, s.drop 3)
  else if p.char = '-' ∧ endsWord rest then
    (l.addEntry? .blockListStart .blockItem p).map (·, rest)
  else if p.char = '?' ∧ (l.inFlow ∨ endsWord rest) then
    (l.addEntry? .blockTableStart .key p).map (·, rest)
  else if p.char = ':' ∧ (l.inFlow ∨ endsWord rest) then (l.addValue? p).map (·, rest)
  else if canBeginPlain l.inFlow s then l.addPlain? p rest
  else l.addSign? p rest

/-- The next token, and whether a key is allowed there, which it is on a new line outside of
brackets. Where a key is allowed, no tab may stand before the token, and outside of comments a byte
order mark may only begin a line. -/
def toToken (flow : Bool) (keyAllowed comment : Bool) : Source → Bool × Source
  | [] => (keyAllowed, [])
  | p :: rest =>
    if isBreak p.char then toToken flow (keyAllowed || !flow) false rest
    else if comment || p.char = ' ' || p.char = '\t' && (flow || !keyAllowed)
        || p.char = '\ufeff' && p.column = 0 then
      toToken flow keyAllowed comment rest
    else if p.char = '#' then toToken flow keyAllowed true rest
    else (keyAllowed, p :: rest)

def tokensFrom (l : Layout) : (fuel : Nat) → Source → Option (List Token)
  | 0, _ => none
  | fuel + 1, s => do
    let (keyAllowed, s) := toToken l.inFlow l.keyAllowed false s
    match s with
    | [] => (l.close fun _ => false).dropKey?.map (·.slots.toList.flatten)
    | p :: rest => do
      let l ← { l with keyAllowed }.dropStale? p
      let (l, rest) ← (l.close (· ≤ p.column)).next? p rest
      tokensFrom l fuel rest

end Layout

def tokens? (s : Source) : Option (List Token) := Layout.tokensFrom {} (s.length + 1) s

end CodeCache.Yaml
