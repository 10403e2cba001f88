import CodeCache.Number
import CodeCache.Text

/-! # Scanning YAML

A text is read as the list of its characters, each with its line, its column and the number of bytes
before it, since the columns at which things stand decide what they belong to. Line breaks of all
kinds are line feeds, but for the line and paragraph separators, which stay what they are.

Within a plain or quoted scalar the blanks around a line break do not count, and the break itself
counts as a space unless further ones follow, which count as themselves. A plain scalar runs to a
colon before a blank, to a comment or to the end of the document, within brackets also to a comma or
a bracket. It goes on in further lines that are indented enough. A quoted scalar runs to its closing
quote, over as many lines as it likes, but not over the end of the document. Between single quotes
only the quote itself is escaped, by doubling it; between double quotes a backslash escapes
characters and line breaks. A block scalar keeps the lines under its header, without their
indentation, as they stand or folded into paragraphs. The header can tell how far the lines are
indented; otherwise the first line with text does, or an empty line before it that is longer.

A tag names the type of a node. It is written in full between angle brackets, or as a handle and a
suffix; directives say what the handles of a document stand for. Since percent signs escape bytes, a
tag is a byte string, which ends at the first zero byte.

The tokens of a text bracket all collections: those in brackets by the brackets, block lists and
tables by marks for the changes of indentation. Anchors and references are numbered. -/

namespace CodeCache.Yaml

structure Place where
  char : Char
  line : Nat
  column : Nat
  offset : Nat
deriving DecidableEq, Repr

abbrev Source := List Place

def isBlank (c : Char) : Bool := c = ' ' || c = '\t'

def isBreak (c : Char) : Bool := c = '\n' || c = '\u2028' || c = '\u2029'

def isWord (c : Char) : Bool := c.isAlphanum || c = '_' || c = '-'

def isAllowed (c : Char) : Bool :=
  let n := c.toNat
  n = 0x9 || n = 0xA || n = 0xD || 0x20 ≤ n && n ≤ 0x7E || n = 0x85 || 0xA0 ≤ n && n ≤ 0xD7FF
    || 0xE000 ≤ n && n ≤ 0xFFFD || 0x10000 ≤ n

def placesFrom (line column offset : Nat) (done : List Place) : List Char → Source
  | '\r' :: '\n' :: rest =>
    placesFrom (line + 1) 0 (offset + 2) (⟨'\n', line, column, offset⟩ :: done) rest
  | c :: rest =>
    let char := if c = '\r' ∨ c = '\u0085' then '\n' else c
    let done := ⟨char, line, column, offset⟩ :: done
    if isBreak char then placesFrom (line + 1) 0 (offset + c.utf8Size) done rest
    else placesFrom line (column + 1) (offset + c.utf8Size) done rest
  | [] => done.reverse

/-- A text from its first place on, unless it holds a character that it must not. A byte order mark
before it does not count. -/
def source? (text : String) : Option Source :=
  let cs := text.toList
  let cs := if cs.head? = some '\ufeff' then cs.tail else cs
  if cs.all isAllowed then some (placesFrom 0 0 0 [] cs) else none

def spelling (s : Source) : String := String.ofList (s.map (·.char))

def isAt (c : Char) (s : Source) : Bool := s.head?.any (·.char = c)

def takeChars (p : Char → Bool) (s : Source) : Source := s.takeWhile (p ·.char)

def dropChars (p : Char → Bool) (s : Source) : Source := s.dropWhile (p ·.char)

def endsWord : Source → Bool
  | [] => true
  | p :: _ => isBlank p.char || isBreak p.char

/-- A line begins here with a mark of three characters. -/
def isAtMark (mark : String) (s : Source) : Bool :=
  s.head?.any (·.column = 0) && spelling (s.take 3) = mark && endsWord (s.drop 3)

/-- A line begins here that ends the document or begins another one. -/
def isAtBoundary (s : Source) : Bool := isAtMark "---" s || isAtMark "..." s

def nextLine? (s : Source) : Option Source :=
  let s := dropChars isBlank s
  match if isAt '#' s then dropChars (!isBreak ·) s else s with
  | [] => some []
  | p :: rest => if isBreak p.char then some rest else none

/-- Blanks, a first line break and further ones; the lists have the last character first. -/
structure Gap where
  blanks : List Char := []
  broken : Bool := false
  first : Option Char := none
  further : List Char := []
deriving DecidableEq, Repr

namespace Gap

def escaped : Gap := { broken := true }

def add (g : Gap) (c : Char) : Gap :=
  if isBlank c then (if g.broken then g else { g with blanks := c :: g.blanks })
  else if g.broken then { g with further := c :: g.further }
  else { g with broken := true, first := some c }

def text (g : Gap) : List Char :=
  if !g.broken then g.blanks
  else if g.first = some '\n' then (if g.further = [] then [' '] else g.further)
  else g.further ++ g.first.toList

/-- A tab that begins a line may not stand before column `least`. -/
def forbids (least : Nat) (p : Place) (g : Gap) : Bool :=
  g.broken && p.char = '\t' && p.column < least

def read (g : Gap) : Source → Gap × Source
  | [] => (g, [])
  | p :: rest =>
    if isBlank p.char || isBreak p.char then (g.add p.char).read rest else (g, p :: rest)

end Gap

def isBracket (c : Char) : Bool := c ∈ ",[]\x7b\x7d".toList

def isIndicator (c : Char) : Bool :=
  isBracket c || c ∈ "-?:#&*!|>'\"%@".toList || c.toNat = 0x60

def canBeginPlain (flow : Bool) : Source → Bool
  | [] => false
  | p :: rest =>
    !isBlank p.char && !isBreak p.char && !isIndicator p.char
      || p.char = '-' && !rest.head?.any (isBlank ·.char)
      || !flow && (p.char = '?' || p.char = ':') && !endsWord rest

/-- A colon right before a bracket, which is an error within brackets. -/
def isStrayColon (flow : Bool) : Source → Bool
  | p :: q :: _ => flow && p.char = ':' && (isBracket q.char || q.char = '?')
  | _ => false

def endsPlain (flow : Bool) : Source → Bool
  | [] => true
  | p :: rest => p.char = ':' && endsWord rest || flow && isBracket p.char

def endsAfterGap (flow : Bool) (least : Nat) (gap : Gap) : Source → Bool
  | [] => true
  | p :: rest =>
    gap.broken && !flow && p.column < least || isAtBoundary (p :: rest)
      || (gap.broken || !gap.blanks.isEmpty) && p.char = '#'

/-- What remains of a plain scalar after the text `done` (the last character first) and a gap: all
of its text, the gap after it and the rest. -/
def plainFrom? (flow : Bool) (least : Nat) (done : List Char) (gap : Gap) :
    Source → Option (List Char × Gap × Source)
  | [] => some (done, gap, [])
  | p :: rest =>
    if isBlank p.char || isBreak p.char then
      if gap.forbids least p then none else plainFrom? flow least done (gap.add p.char) rest
    else if endsAfterGap flow least gap (p :: rest) then some (done, gap, p :: rest)
    else if isStrayColon flow (p :: rest) then none
    else if endsPlain flow (p :: rest) then some (done, gap, p :: rest)
    else plainFrom? flow least (p.char :: (gap.text ++ done)) {} rest

/-- A plain scalar, whether a line break follows it, and the next token. Its further lines begin no
earlier than at column `least`. -/
def plain? (flow : Bool) (least : Nat) (s : Source) : Option (String × Bool × Source) :=
  (plainFrom? flow least [] {} s).map fun r =>
    (String.ofList r.1.reverse, r.2.1.broken, r.2.2)

def escapeWidth? (c : Char) : Option Nat :=
  if c = 'x' then some 2 else if c = 'u' then some 4 else if c = 'U' then some 8 else none

def escapes : List (Char × Nat) := [
  ('0', 0), ('a', 7), ('b', 8), ('t', 9), ('\t', 9), ('n', 10), ('v', 11), ('f', 12), ('r', 13),
  ('e', 27), (' ', 32), ('"', 34), ('/', 47), ('\\', 92), ('N', 0x85), ('_', 0xA0), ('L', 0x2028),
  ('P', 0x2029)]

def char? (n : Nat) : Option Char := if n.isValidChar then some (Char.ofNat n) else none

def escape? : Source → Option (Char × Source)
  | [] => none
  | p :: rest =>
    match escapeWidth? p.char with
    | some width => do
      let digits := (rest.take width).map (·.char)
      if digits.length < width then none
      return (← char? (← Number.readRadix? 16 digits), rest.drop width)
    | none => do return (← char? (← escapes.lookup p.char), rest)

/-- The text of a quoted scalar up to its closing quote, and the rest. The text read so far is given
last character first. -/
def quotedFrom (quote : Char) :
    (fuel : Nat) → (done : List Char) → Source → Option (List Char × Source)
  | 0, _, _ => none
  | _, _, [] => none
  | fuel + 1, done, p :: rest =>
    if isAtBoundary (p :: rest) then none
    else if p.char = quote then
      if quote = '\'' && isAt '\'' rest then quotedFrom quote fuel ('\'' :: done) rest.tail
      else some (done.reverse, rest)
    else if quote = '"' ∧ p.char = '\\' then
      if rest.head?.any (isBreak ·.char) then
        let (gap, rest) := Gap.escaped.read rest.tail
        quotedFrom quote fuel (gap.text ++ done) rest
      else do
        let (c, rest) ← escape? rest
        quotedFrom quote fuel (c :: done) rest
    else if isBlank p.char || isBreak p.char then
      let (gap, rest) := Gap.read {} (p :: rest)
      quotedFrom quote fuel (gap.text ++ done) rest
    else quotedFrom quote fuel (p.char :: done) rest

def quoted? (quote : Char) (s : Source) : Option (String × Source) :=
  (quotedFrom quote (s.length + 1) [] s).map fun r => (String.ofList r.1, r.2)

inductive Chomping where
  | strip
  | clip
  | keep
deriving DecidableEq, Repr

structure BlockHeader where
  chomping : Chomping
  indent : Option Nat
deriving DecidableEq, Repr

def chomping : Source → Option Chomping × Source
  | [] => (none, [])
  | p :: rest =>
    if p.char = '+' then (some .keep, rest)
    else if p.char = '-' then (some .strip, rest)
    else (none, p :: rest)

def indentDigit? : Source → Option (Option Nat × Source)
  | [] => some (none, [])
  | p :: rest =>
    if p.char = '0' then none
    else if p.char.isDigit then some (some (p.char.toNat - 48), rest)
    else some (none, p :: rest)

def blockHeader? (s : Source) : Option (BlockHeader × Source) := do
  let (before, s) := chomping s
  let (indent, s) ← indentDigit? s
  let (after, s) := if before.isSome ∨ indent.isNone then (none, s) else chomping s
  return (⟨(before.or after).getD .clip, indent⟩, ← nextLine? s)

/-- The breaks of lines without text, last one first, the greatest column that their blanks reach,
and the first text. Tabs may not stand in the indentation, which is all that is before the text as
long as it is not known. -/
def emptyLines? (indent : Option Nat) (breaks : List Char) (widest : Nat) :
    Source → Option (List Char × Nat × Source)
  | [] => some (breaks, widest, [])
  | p :: rest =>
    let indents := indent.all (p.column < ·)
    if indents && p.char = ' ' then emptyLines? indent breaks (max widest (p.column + 1)) rest
    else if indents && p.char = '\t' then none
    else if isBreak p.char then emptyLines? indent (p.char :: breaks) widest rest
    else some (breaks, widest, p :: rest)

/-- A block scalar up to its last line with text, which may have begun with a blank, and the breaks
of the empty lines after it. The texts have the last character first. -/
structure BlockText where
  done : List Char := []
  lastBreak : Option Char := none
  breaks : List Char
  wasBlank : Bool := false
deriving DecidableEq, Repr

namespace BlockText

/-- What stands for the breaks before a line with text. -/
def joint (literal startsBlank : Bool) (b : BlockText) : List Char :=
  if !literal && b.lastBreak = some '\n' && !b.wasBlank && !startsBlank then
    if b.breaks = [] then [' '] else b.breaks
  else b.breaks ++ b.lastBreak.toList

def add (literal : Bool) (b : BlockText) (line : List Char) (lastBreak : Option Char)
    (breaks : List Char) : BlockText :=
  let startsBlank := line.head?.any isBlank
  ⟨line.reverse ++ b.joint literal startsBlank ++ b.done, lastBreak, breaks, startsBlank⟩

def text (c : Chomping) (b : BlockText) : String :=
  let tail :=
    match c with
    | .strip => []
    | .clip => b.lastBreak.toList
    | .keep => b.breaks ++ b.lastBreak.toList
  String.ofList (tail ++ b.done).reverse

end BlockText

def blockLines? (literal : Bool) (indent : Nat) :
    (fuel : Nat) → BlockText → Source → Option (BlockText × Source)
  | 0, _, _ => none
  | fuel + 1, b, s =>
    if s.head?.any (·.column = indent) then do
      let line := (takeChars (!isBreak ·) s).map (·.char)
      let rest := dropChars (!isBreak ·) s
      let (breaks, _, next) ← emptyLines? (some indent) [] 0 rest.tail
      blockLines? literal indent fuel (b.add literal line (rest.head?.map (·.char)) breaks) next
    else some (b, s)

/-- A block scalar after its first character, and what follows it. Its surroundings allow columns
from `least` on. -/
def block? (literal : Bool) (least : Nat) (s : Source) : Option (String × Source) := do
  let (header, s) ← blockHeader? s
  let given := header.indent.map (least - 1 + ·)
  let (breaks, widest, s) ← emptyLines? given [] 0 s
  let indent := given.getD (max widest (max least 1))
  let (b, s) ← blockLines? literal indent (s.length + 1) { breaks } s
  return (b.text header.chomping, s)

structure TagName where
  handle : Option String
  suffix : Bytes
deriving DecidableEq, Repr

inductive Directive where
  | version (major minor : Nat)
  | handle (name : String) (expansion : Bytes)
deriving DecidableEq, Repr

def isUriChar (brackets : Bool) (c : Char) : Bool :=
  isWord c || c ∈ ";/?:@&=+$.%!~*'()".toList || brackets && c ∈ ",[]".toList

def octet? (s : Source) : Option (Nat × Source) := do
  if !isAt '%' s ∨ s.length < 3 then none
  return (← Number.readRadix? 16 ((s.tail.take 2).map (·.char)), s.drop 3)

def utf8Width? (octet : Nat) : Option Nat :=
  if octet < 0x80 then some 1
  else if 0xC0 ≤ octet ∧ octet < 0xE0 then some 2
  else if 0xE0 ≤ octet ∧ octet < 0xF0 then some 3
  else if 0xF0 ≤ octet ∧ octet < 0xF8 then some 4
  else none

def laterOctets? : (count : Nat) → Source → Option (Bytes × Source)
  | 0, s => some ([], s)
  | count + 1, s => do
    let (octet, s) ← octet? s
    if octet < 0x80 ∨ 0xC0 ≤ octet then none
    let (bytes, s) ← laterOctets? count s
    return (UInt8.ofNat octet :: bytes, s)

def escapedBytes? (s : Source) : Option (Bytes × Source) := do
  let (octet, s) ← octet? s
  let (bytes, s) ← laterOctets? ((← utf8Width? octet) - 1) s
  return (UInt8.ofNat octet :: bytes, s)

/-- The bytes up to the first character that is not one of a tag. -/
def uriFrom (brackets : Bool) : (fuel : Nat) → Source → Option (Bytes × Source)
  | 0, _ => none
  | fuel + 1, s =>
    match s with
    | [] => some ([], [])
    | p :: rest =>
      if p.char = '%' then do
        let (bytes, rest) ← escapedBytes? s
        let (later, rest) ← uriFrom brackets fuel rest
        return (bytes ++ later, rest)
      else if isUriChar brackets p.char then do
        let (later, rest) ← uriFrom brackets fuel rest
        return (UInt8.ofNat p.char.toNat :: later, rest)
      else some ([], s)

/-- Commas and square brackets belong to a tag only where nothing can follow it. -/
def uri? (brackets : Bool) (s : Source) : Option (Bytes × Source) :=
  uriFrom brackets (s.length + 1) s

def nonempty? (r : Bytes × Source) : Option (Bytes × Source) := if r.1 = [] then none else some r

def untilZero (bytes : Bytes) : Bytes := bytes.takeWhile (· ≠ 0)

/-- An exclamation mark and a word, and another exclamation mark if one follows. -/
def handle? (s : Source) : Option (String × Source) :=
  if isAt '!' s then
    let word := "!" ++ spelling (takeChars isWord s.tail)
    let rest := dropChars isWord s.tail
    if isAt '!' rest then some (word ++ "!", rest.tail) else some (word, rest)
  else none

/-- A handle has two exclamation marks, but for the one that stands alone. -/
def isClosed (handle : String) : Bool := 1 < handle.length && handle.toList.getLast? = some '!'

/-- A tag that begins with an exclamation mark. One that is nothing else stands for itself. -/
def tagName? (s : Source) : Option (TagName × Source) := do
  if isAt '<' s.tail then
    let (bytes, rest) ← (uri? true (s.drop 2)).bind nonempty?
    if isAt '>' rest then some (⟨none, untilZero bytes⟩, rest.tail) else none
  else
    let (handle, rest) ← handle? s
    if isClosed handle then
      let (bytes, rest) ← (uri? false rest).bind nonempty?
      return (⟨some handle, untilZero bytes⟩, rest)
    else
      let (bytes, rest) ← uri? false rest
      let suffix := untilZero ((Text.Utf8.encode handle).tail ++ bytes)
      return (if suffix = [] then ⟨none, Text.Utf8.encode "!"⟩ else ⟨some "!", suffix⟩, rest)

def tag? (flow : Bool) (s : Source) : Option (TagName × Source) :=
  (tagName? s).bind fun r => if endsWord r.2 || flow && isAt ',' r.2 then some r else none

def shortNumber? (s : Source) : Option (Nat × Source) := do
  let digits := takeChars Char.isDigit s
  if 9 < digits.length then none
  return (← Number.readNat? (digits.map (·.char)), dropChars Char.isDigit s)

def versionDirective? (s : Source) : Option (Directive × Source) := do
  let (major, s) ← shortNumber? s
  if !isAt '.' s then none
  let (minor, s) ← shortNumber? s.tail
  return (.version major minor, s)

def handleDirective? (s : Source) : Option (Directive × Source) := do
  let (name, s) ← handle? s
  if name ≠ "!" ∧ !isClosed name then none
  if !s.head?.any (isBlank ·.char) then none
  let (bytes, s) ← (uri? true (dropChars isBlank s)).bind nonempty?
  if endsWord s then some (.handle name (untilZero bytes), s) else none

def directive? (s : Source) : Option (Directive × Source) := do
  let name := spelling (takeChars isWord s)
  let s := dropChars isWord s
  if !endsWord s then none
  let s := dropChars isBlank s
  let (d, s) ←
    if name = "YAML" then versionDirective? s
    else if name = "TAG" then handleDirective? s
    else none
  return (d, ← nextLine? s)

inductive Style where
  | plain
  | quoted
  | literal
  | folded
deriving DecidableEq, Repr

inductive Token where
  | directive (d : Directive)
  | documentStart
  | documentEnd
  | blockListStart
  | blockTableStart
  | blockEnd
  | blockItem
  | flowListStart
  | flowListEnd
  | flowTableStart
  | flowTableEnd
  | separator
  | key
  | value
  | anchor (id : Nat)
  | reference (id : Nat)
  | tag (name : TagName)
  | scalar (style : Style) (text : String)
deriving DecidableEq, Repr

end CodeCache.Yaml
