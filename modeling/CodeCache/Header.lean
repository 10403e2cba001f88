import CodeCache.Bytes
import CodeCache.Number
import CodeCache.Text

/-! # Blob headers

An engine names its version in a text such as `v14.17.0`. Reading trims the text, drops one leading
`v`, cuts the rest at the first `-` or `+` and takes the first three components between dots. The
first component is required, a missing second or third counts as zero, and further components are
ignored. A component is a run of digits below `2 ^ 32`.

A blob begins with a header of 24 bytes, six words. The word at offset 8 records the length of the
compiled source in UTF-16 units, with the highest bit set when the source was a module. Everything
after the header belongs to the engine.

An engine takes a blob only together with a source of the recorded length. When the source is not at
hand a placeholder stands in for it: a string literal of zero-width spaces. A length that cannot
hold the two quotes gets the empty source.

Some words of a header identify the engine build that wrote the blob. A recipe names the byte ranges
that hold them, for the engine versions its predicates match. Applying a recipe copies those ranges
from a blob of the running engine. Ranges are clipped to the bytes that both blobs have. -/

namespace CodeCache

structure Version where
  major : UInt32
  minor : UInt32
  patch : UInt32
deriving DecidableEq, Repr

namespace Version

def core (s : String) : List Char :=
  let cs := Text.trim s.toList
  let cs := if cs.head? = some 'v' then cs.tail else cs
  cs.takeWhile fun c => c ≠ '-' && c ≠ '+'

def component? : Option (List Char) → Option UInt32
  | none => some 0
  | some cs => Number.readUInt32? cs

def parse? (s : String) : Option Version := do
  let parts := (core s).splitOn '.'
  let major ← Number.readUInt32? (parts.headD [])
  let minor ← component? parts[1]?
  let patch ← component? parts[2]?
  return ⟨major, minor, patch⟩

def text (v : Version) : String := s!"v{v.major.toNat}.{v.minor.toNat}.{v.patch.toNat}"

def compare (v w : Version) : Ordering :=
  (Ord.compare v.major w.major).then <|
    (Ord.compare v.minor w.minor).then <| Ord.compare v.patch w.patch

end Version

inductive HeaderError where
  | truncated (size : Nat)
  | sourceTooLong (length : UInt32)
deriving DecidableEq, Repr

namespace Header

def size : Nat := 24

def fieldOffset : Nat := 8

def moduleFlag : UInt32 := 0x80000000

def maxSourceLength : UInt32 := 536870888

def field (blob : Bytes) : Except HeaderError UInt32 :=
  if fieldOffset + 4 ≤ blob.length then .ok (blob.word fieldOffset)
  else .error (.truncated blob.length)

def lengthOf (field : UInt32) : UInt32 := field % moduleFlag

def flagOf (field : UInt32) : Bool := moduleFlag ≤ field

def sourceLength (blob : Bytes) : Except HeaderError UInt32 := (field blob).map lengthOf

def isModule (blob : Bytes) : Except HeaderError Bool := (field blob).map flagOf

end Header

def HeaderError.message : HeaderError → String
  | .truncated size =>
    s!"Blob header truncated: {size} bytes, need at least {Header.fieldOffset + 4}"
  | .sourceTooLong length =>
    s!"Blob header records source length {length.toNat}, " ++
      s!"above the maximum {Header.maxSourceLength.toNat}"

structure Header.Summary where
  blobSize : Nat
  sourceLength : UInt32
  isModule : Bool
  words : List UInt32
deriving DecidableEq, Repr

namespace Header.Summary

def read (blob : Bytes) : Except HeaderError Summary := do
  let sourceLength ← Header.sourceLength blob
  let isModule ← Header.isModule blob
  return ⟨blob.length, sourceLength, isModule, Bytes.words (blob.take Header.size)⟩

/-- The length of the placeholder that goes with the header: shorter sources than a pair of quotes
have an empty one. -/
def placeholderLength (s : Summary) : UInt32 := if 1 < s.sourceLength then s.sourceLength else 0

end Header.Summary

/-- Nothing at all, or fillers between two quotes. -/
inductive Placeholder where
  | empty
  | literal (fillers : Nat)
deriving DecidableEq, Repr

namespace Placeholder

def filler : Char := '\u200b'

def ofLength (length : UInt32) : Except HeaderError Placeholder :=
  if Header.maxSourceLength < length then .error (.sourceTooLong length)
  else if length.toNat ≤ 1 then .ok .empty
  else .ok (.literal (length.toNat - 2))

def ofBlob (blob : Bytes) : Except HeaderError Placeholder := Header.sourceLength blob >>= ofLength

def chars : Placeholder → List Char
  | empty => []
  | literal n => '"' :: List.replicate n filler ++ ['"']

def text (p : Placeholder) : String := String.ofList p.chars

def fillers : Placeholder → Nat
  | empty => 0
  | literal n => n

def length : Placeholder → Nat
  | empty => 0
  | literal n => n + 2

def byteSize : Placeholder → Nat
  | empty => 0
  | literal n => 3 * n + 2

/-- The first `count` characters. A placeholder reads the same from either end. -/
def first (p : Placeholder) (count : Nat) : String :=
  match p with
  | empty => ""
  | literal n => String.ofList ((literal (min n count)).chars.take count)

theorem length_chars (p : Placeholder) : p.chars.length = p.length := by
  cases p <;> simp [chars, length]

theorem units16_text (p : Placeholder) : Text.units16 p.text = p.length := by
  cases p with
  | empty => rfl
  | literal n =>
    have quote : Text.charUnits16 '"' = 1 := rfl
    have unit : Text.charUnits16 filler = 1 := rfl
    simp [Text.units16, Text.charsUnits16, text, chars, length, quote, unit]
    omega

theorem byteSize_text (p : Placeholder) : (Text.Utf8.encode p.text).length = p.byteSize := by
  cases p with
  | empty => rfl
  | literal n =>
    have quote : Char.utf8Size '"' = 1 := rfl
    have unit : Char.utf8Size filler = 3 := rfl
    simp [Text.Utf8.encode, text, chars, byteSize, quote, unit, List.length_flatMap]
    omega

end Placeholder

end CodeCache

namespace CodeCache.Patch

/-- The half-open byte range `[start, stop)`. -/
structure Range where
  start : UInt64
  stop : UInt64
deriving DecidableEq, Repr

/-- A set of engine versions; a range of major versions includes both bounds. -/
inductive Predicate where
  | majorMinor (major minor : UInt32)
  | majorRange (least greatest : UInt32)
  | any
deriving DecidableEq, Repr

def Predicate.holds (v : Version) : Predicate → Bool
  | majorMinor major minor => v.major == major && v.minor == minor
  | majorRange least greatest => least ≤ v.major && v.major ≤ greatest
  | any => true

structure Recipe where
  name : String
  conditions : List Predicate
  ranges : List Range
deriving DecidableEq, Repr

def Recipe.applies (r : Recipe) (v : Version) : Bool := r.conditions.any (·.holds v)

/-- Copies one range, clipped to both lengths, from `reference` to the same place of `blob`. -/
def Range.copy (blob reference : Bytes) (r : Range) : Bytes :=
  let start := r.start.toNat
  let stop := min r.stop.toNat (min blob.length reference.length)
  if start < stop then blob.take start ++ reference.slice start stop ++ blob.drop stop else blob

def Recipe.apply (r : Recipe) (blob reference : Bytes) : Bytes :=
  r.ranges.foldl (fun blob range => range.copy blob reference) blob

/-- Recipes in order; the first one that applies is taken. -/
structure Table where
  recipes : List Recipe
deriving DecidableEq, Repr

namespace Table

def matching (t : Table) (v : Version) : List Recipe := t.recipes.filter (·.applies v)

def select (t : Table) (v : Version) : Option Recipe := t.recipes.find? (·.applies v)

theorem head?_matching (t : Table) (v : Version) : (t.matching v).head? = t.select v := by
  simp [matching, select, List.head?_filter]

/-- The recipe taken, if any, and the blob after it. -/
def patch (t : Table) (v : Version) (blob reference : Bytes) : Option Recipe × Bytes :=
  match t.select v with
  | none => (none, blob)
  | some r => (some r, r.apply blob reference)

/-- The ranges known to identify a build, for each line of engine versions. -/
def builtin : Table where
  recipes := [
    { name := "legacy"
      conditions := [.majorMinor 8 8, .majorMinor 8 9]
      ranges := [⟨16, 20⟩, ⟨20, 24⟩] },
    { name := "single-range"
      conditions := [.majorRange 12 16]
      ranges := [⟨12, 16⟩] },
    { name := "default"
      conditions := [.any]
      ranges := [⟨12, 16⟩, ⟨16, 20⟩] }]

end Table

end CodeCache.Patch
