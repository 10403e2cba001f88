import CodeCache.Number
import CodeCache.Value

/-! # JSON

A text holds one value and nothing else but white space. Strings may hold any character but the
controls, and their escapes give UTF-16 units: a surrogate without its partner leaves the string
without a text. A number without fraction and exponent is an integer if 64 bits hold it, except for
minus zero. Any other number becomes the product of two doubles, one nearest to its leading digits,
as many as fit into a word, and one nearest to a power of ten. It is held if neither the power nor
the product is too large. Productions that nest take a bound on their depth, which the length of the
text exceeds.

`compact` writes a value on one line without blanks, `pretty` writes every entry and item on a line
of its own, indented by two spaces per level. In a string the quote, the backslash and the controls
are escaped and nothing else is. -/

namespace CodeCache.Json

def digits? (cs : List Char) : Option (List Char × List Char) :=
  let ds := cs.takeWhile Char.isDigit
  if ds = [] then none else some (ds, cs.dropWhile Char.isDigit)

def fraction? : List Char → Option (Option (List Char) × List Char)
  | '.' :: rest => (digits? rest).map fun r => (some r.1, r.2)
  | cs => some (none, cs)

def exponent? : List Char → Option (Option Int × List Char)
  | c :: rest =>
    if c = 'e' ∨ c = 'E' then do
      let negative := rest.head? = some '-'
      let (ds, rest) ← digits? (if negative ∨ rest.head? = some '+' then rest.tail else rest)
      let n := Nat.ofDigitChars 10 ds 0
      return (some (if negative then -n else n), rest)
    else some (none, c :: rest)
  | [] => some (none, [])

def whole? : List Char → Option (List Char × List Char)
  | '0' :: rest => some (['0'], rest)
  | cs => digits? cs

/-- The integer with a sign and digits, unless it is minus zero or needs more than 64 bits. -/
def integer? (negative : Bool) (whole : List Char) : Option Int :=
  let n := Nat.ofDigitChars 10 whole 0
  if negative then if 0 < n ∧ n ≤ 0x8000000000000000 then some (-n) else none
  else if n < UInt64.size then some n else none

/-- Appends digits to a number until the next one would need more than 64 bits, and counts those
that are left. -/
def appendWhileFits (n : Nat) : List Char → Nat × Nat
  | [] => (n, 0)
  | c :: cs =>
    let next := 10 * n + (c.toNat - 48)
    if next < UInt64.size then appendWhileFits next cs else (n, cs.length + 1)

/-- Whether a double can hold the number with the given digits before and after its point. -/
def isHeld (whole fraction : List Char) (exponent : Int) : Bool :=
  let (head, skipped) := appendWhileFits 0 whole
  let (head, dropped) := appendWhileFits head fraction
  let exponent := exponent + skipped - (fraction.length - dropped : Nat)
  if head = 0 ∨ exponent < 0 then true
  else if 308 < exponent then false
  else
    let power := Number.Binary64.ofQuotient false (Nat.pow 10 exponent.toNat) 1
    (Number.Binary64.product (Number.Binary64.ofQuotient false head 1) power).isFinite

def numberOf (negative : Bool) (whole : List Char) (fraction : Option (List Char))
    (exponent : Option Int) : Document :=
  match integer? negative whole, fraction, exponent with
  | some i, none, none => .int i
  | _, _, _ => .real (isHeld whole (fraction.getD []) (exponent.getD 0))

def number? (cs : List Char) : Option (Document × List Char) := do
  let negative := cs.head? = some '-'
  let (whole, rest) ← whole? (if negative then cs.tail else cs)
  let (fraction, rest) ← fraction? rest
  let (exponent, rest) ← exponent? rest
  return (numberOf negative whole fraction exponent, rest)

def isSpace (c : Char) : Bool := c = ' ' || c = '\n' || c = '\t' || c = '\r'

def skipSpace (cs : List Char) : List Char := cs.dropWhile isSpace

/-- A character as written in a string, or the UTF-16 unit of an escape. -/
inductive Piece where
  | char (c : Char)
  | unit (n : Nat)
deriving DecidableEq, Repr

def unescape? (c : Char) : Option Char :=
  if c = '"' ∨ c = '\\' ∨ c = '/' then some c
  else if c = 'b' then some '\x08'
  else if c = 'f' then some '\x0c'
  else if c = 'n' then some '\n'
  else if c = 'r' then some '\r'
  else if c = 't' then some '\t'
  else none

def stringPieces : List Char → Option (List Piece × List Char)
  | [] => none
  | '"' :: rest => some ([], rest)
  | '\\' :: 'u' :: a :: b :: c :: d :: rest => do
    let n ← Number.readRadix? 16 [a, b, c, d]
    let (pieces, rest) ← stringPieces rest
    return (.unit n :: pieces, rest)
  | '\\' :: e :: rest => do
    let c ← unescape? e
    let (pieces, rest) ← stringPieces rest
    return (.char c :: pieces, rest)
  | c :: rest => do
    if c.toNat < 0x20 ∨ c = '\\' then none
    let (pieces, rest) ← stringPieces rest
    return (.char c :: pieces, rest)

def isHighSurrogate (n : Nat) : Bool := 0xD800 ≤ n && n < 0xDC00

def isLowSurrogate (n : Nat) : Bool := 0xDC00 ≤ n && n < 0xE000

/-- The characters that pieces make up, if all surrogates come in pairs. -/
def assemble? : List Piece → Option (List Char)
  | [] => some []
  | .char c :: rest => (assemble? rest).map (c :: ·)
  | .unit n :: .unit m :: rest =>
    if isHighSurrogate n && isLowSurrogate m then
      (assemble? rest).map (Char.ofNat (0x10000 + (n - 0xD800) * 0x400 + (m - 0xDC00)) :: ·)
    else if isHighSurrogate n || isLowSurrogate n then none
    else (assemble? (.unit m :: rest)).map (Char.ofNat n :: ·)
  | .unit n :: rest =>
    if isHighSurrogate n || isLowSurrogate n then none
    else (assemble? rest).map (Char.ofNat n :: ·)

def stringBody (cs : List Char) : Option (Option String × List Char) := do
  let (pieces, rest) ← stringPieces cs
  return ((assemble? pieces).map String.ofList, rest)

def expectWord (word : String) (cs : List Char) : Option (List Char) :=
  if word.toList.isPrefixOf cs then some (cs.drop word.length) else none

def atom? (cs : List Char) : Option (Document × List Char) :=
  match cs.head? with
  | some '"' => (stringBody cs.tail).map fun r => (.text r.1, r.2)
  | some 'n' => (expectWord "null" cs).map (.null, ·)
  | some 't' => (expectWord "true" cs).map (.bool true, ·)
  | some 'f' => (expectWord "false" cs).map (.bool false, ·)
  | _ => number? cs

def key? : List Char → Option (Option String × List Char)
  | '"' :: rest => do
    let (key, rest) ← stringBody rest
    match skipSpace rest with
    | ':' :: rest => some (key, skipSpace rest)
    | _ => none
  | _ => none

mutual
def valueWithin : (depth : Nat) → List Char → Option (Document × List Char)
  | 0, _ => none
  | depth + 1, cs =>
    if cs.head? = some '[' then
      let rest := skipSpace cs.tail
      if rest.head? = some ']' then some (.list [], rest.tail)
      else (itemsWithin depth rest).map fun r => (.list r.1, r.2)
    else if cs.head? = some '\x7b' then
      let rest := skipSpace cs.tail
      if rest.head? = some '\x7d' then some (.table [], rest.tail)
      else (entriesWithin depth rest).map fun r => (.table r.1, r.2)
    else atom? cs
def itemsWithin : (depth : Nat) → List Char → Option (List Document × List Char)
  | 0, _ => none
  | depth + 1, cs => do
    let (d, rest) ← valueWithin depth cs
    match skipSpace rest with
    | ',' :: rest =>
      let (ds, rest) ← itemsWithin depth (skipSpace rest)
      return (d :: ds, rest)
    | ']' :: rest => some ([d], rest)
    | _ => none
def entriesWithin : (depth : Nat) → List Char → Option (List (Option String × Document) × List Char)
  | 0, _ => none
  | depth + 1, cs => do
    let (key, rest) ← key? cs
    let (d, rest) ← valueWithin depth rest
    match skipSpace rest with
    | ',' :: rest =>
      let (es, rest) ← entriesWithin depth (skipSpace rest)
      return ((key, d) :: es, rest)
    | '\x7d' :: rest => some ([(key, d)], rest)
    | _ => none
end

def parse? (text : String) : Option Document := do
  let cs := skipSpace text.toList
  let (d, rest) ← valueWithin (2 * cs.length + 1) cs
  if skipSpace rest = [] then some d else none

def hex2 (n : Nat) : List Char := [Nat.digitChar (n / 16), Nat.digitChar (n % 16)]

def escapeChar (c : Char) : List Char :=
  if c = '"' then ['\\', '"']
  else if c = '\\' then ['\\', '\\']
  else if c = '\x08' then ['\\', 'b']
  else if c = '\x0c' then ['\\', 'f']
  else if c = '\n' then ['\\', 'n']
  else if c = '\r' then ['\\', 'r']
  else if c = '\t' then ['\\', 't']
  else if c.toNat < 0x20 then ['\\', 'u', '0', '0'] ++ hex2 c.toNat
  else [c]

def string (s : String) : List Char := '"' :: s.toList.flatMap escapeChar ++ ['"']

def integer (i : Int) : List Char :=
  if i < 0 then '-' :: Nat.toDigits 10 i.natAbs else Nat.toDigits 10 i.natAbs

def atom : Value → List Char
  | .bool true => "true".toList
  | .bool false => "false".toList
  | .int i => integer i
  | .float x => x.text.toList
  | .str s => string s
  | _ => "null".toList

def joined (separator : List Char) : List (List Char) → List Char
  | [] => []
  | [x] => x
  | x :: xs => x ++ separator ++ joined separator xs

mutual
def compact : Value → List Char
  | .array items => '[' :: joined [','] (compactItems items) ++ [']']
  | .object entries => '\x7b' :: joined [','] (compactEntries entries) ++ ['\x7d']
  | v => atom v
def compactItems : List Value → List (List Char)
  | [] => []
  | v :: vs => compact v :: compactItems vs
def compactEntries : List (String × Value) → List (List Char)
  | [] => []
  | (k, v) :: es => (string k ++ ':' :: compact v) :: compactEntries es
end

def newline (depth : Nat) : List Char := '\n' :: List.replicate (2 * depth) ' '

mutual
def prettyAt (depth : Nat) : Value → List Char
  | .array [] => ['[', ']']
  | .array items =>
    '[' :: newline (depth + 1)
      ++ joined (',' :: newline (depth + 1)) (prettyItems (depth + 1) items)
      ++ newline depth ++ [']']
  | .object [] => ['\x7b', '\x7d']
  | .object entries =>
    '\x7b' :: newline (depth + 1)
      ++ joined (',' :: newline (depth + 1)) (prettyEntries (depth + 1) entries)
      ++ newline depth ++ ['\x7d']
  | v => atom v
def prettyItems (depth : Nat) : List Value → List (List Char)
  | [] => []
  | v :: vs => prettyAt depth v :: prettyItems depth vs
def prettyEntries (depth : Nat) : List (String × Value) → List (List Char)
  | [] => []
  | (k, v) :: es => (string k ++ ':' :: ' ' :: prettyAt depth v) :: prettyEntries depth es
end

def pretty (v : Value) : String := String.ofList (prettyAt 0 v)

end CodeCache.Json
