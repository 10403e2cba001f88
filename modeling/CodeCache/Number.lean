/-! # Numbers

Natural numbers are written as non-empty runs of ASCII digits. Leading zeros are allowed when
reading and are never written.

Double-precision numbers are kept as their bit patterns, so that two of them are equal exactly when
they are the same datum. A quotient of natural numbers is rounded to the nearest double, ties to the
even significand, and to infinity from half a unit above the greatest finite double on.

Of all decimal numbers that round to a given double, its text shows the one with the fewest digits,
and of those the nearest, the even one in a tie. It is written positionally while its decimal point
stands from four places before to sixteen places after the first digit, with `.0` added to a whole
number, and with a signed exponent otherwise. -/

namespace CodeCache.Number

def readNat? (cs : List Char) : Option Nat :=
  if cs ≠ [] ∧ cs.all Char.isDigit then some (Nat.ofDigitChars 10 cs 0) else none

def readUInt32? (cs : List Char) : Option UInt32 :=
  (readNat? cs).bind fun n => if n < UInt32.size then some (UInt32.ofNat n) else none

def digitValue? (c : Char) : Option Nat :=
  if c.isDigit then some (c.toNat - 48)
  else if 'a' ≤ c ∧ c ≤ 'f' then some (c.toNat - 87)
  else if 'A' ≤ c ∧ c ≤ 'F' then some (c.toNat - 55)
  else none

def appendDigit? (radix n : Nat) (c : Char) : Option Nat :=
  (digitValue? c).bind fun d => if d < radix then some (radix * n + d) else none

def readRadix? (radix : Nat) (cs : List Char) : Option Nat :=
  if cs = [] then none else cs.foldlM (appendDigit? radix) 0

theorem readNat?_toDigits (n : Nat) : readNat? (Nat.toDigits 10 n) = some n := by
  have nonempty : Nat.toDigits 10 n ≠ [] := Nat.toDigits_ne_nil
  have digits : (Nat.toDigits 10 n).all Char.isDigit := by
    simpa using fun c hc => Nat.isDigit_of_mem_toDigits (by decide) (by decide) hc
  rw [readNat?, if_pos ⟨nonempty, digits⟩, Nat.ofDigitChars_toDigits (by decide) (by decide)]

theorem readUInt32?_toDigits (n : UInt32) : readUInt32? (Nat.toDigits 10 n.toNat) = some n := by
  rw [readUInt32?, readNat?_toDigits, Option.bind_some, if_pos n.toNat_lt, UInt32.ofNat_toNat]

structure Binary64 where
  bits : UInt64
deriving DecidableEq, Repr, Inhabited

namespace Binary64

def signUnit : Nat := 0x8000000000000000

def exponentUnit : Nat := 0x10000000000000

def isNegative (x : Binary64) : Bool := signUnit ≤ x.bits.toNat

def exponentField (x : Binary64) : Nat := x.bits.toNat / exponentUnit % 2048

def fractionField (x : Binary64) : Nat := x.bits.toNat % exponentUnit

def isFinite (x : Binary64) : Bool := x.exponentField != 2047

def isNaN (x : Binary64) : Bool := x.exponentField == 2047 && x.fractionField != 0

/-- The absolute value of a finite double is `significand * 2 ^ exponent`. -/
def significand (x : Binary64) : Nat :=
  if x.exponentField = 0 then x.fractionField else x.fractionField + exponentUnit

def exponent (x : Binary64) : Int := max 1 (x.exponentField : Int) - 1075

def roundQuotient (num den : Nat) : Nat :=
  let q := num / den
  let r := num % den
  if 2 * r < den then q else if den < 2 * r then q + 1 else q + q % 2

def scaled (num den : Nat) (e : Int) : Nat × Nat :=
  (num * Nat.pow 2 (-e).toNat, den * Nat.pow 2 e.toNat)

/-- The exponent of the last significand bit when `num / den` is rounded. -/
def unitExponent (num den : Nat) : Int :=
  let e := max (-1074) ((num.log2 : Int) - den.log2 - 53)
  let s := scaled num den e
  if 2 * exponentUnit ≤ s.1 / s.2 then e + 1 else e

def ofQuotient (negative : Bool) (num den : Nat) : Binary64 :=
  let e := unitExponent num den
  let s := scaled num den e
  let infinite := 2047 * exponentUnit
  let magnitude :=
    if num = 0 then 0 else min infinite ((e + 1074).toNat * exponentUnit + roundQuotient s.1 s.2)
  ⟨UInt64.ofNat ((if negative then signUnit else 0) + magnitude)⟩

def product (x y : Binary64) : Binary64 :=
  let e := x.exponent + y.exponent
  ofQuotient false (x.significand * y.significand * Nat.pow 2 e.toNat) (Nat.pow 2 (-e).toNat)

def ofDecimal (negative : Bool) (digits places : Nat) : Binary64 :=
  ofQuotient negative digits (Nat.pow 10 places)

/-- Whether the double nearest to `digits * 10 ^ exponent` is finite. The number of digits decides
all but the closest cases. -/
def holds (digits : Nat) (exponent : Int) : Bool :=
  let size : Int := (Nat.toDigits 10 digits).length + exponent
  if digits = 0 ∨ size ≤ 308 then true
  else if 310 < size then false
  else
    let power := Nat.pow 10 (-exponent).toNat
    (ofQuotient false (digits * Nat.pow 10 exponent.toNat) power).isFinite

end Binary64

structure Decimal where
  digits : Nat
  exponent : Int
deriving DecidableEq, Repr

namespace Binary64

/-- The least integer `p` with `x < 10 ^ p` for `x = m * 2 ^ q`, given that `m` is positive. -/
def magnitude10 (m : Nat) (q : Int) : Int :=
  let below (p : Int) : Bool :=
    m * Nat.pow 2 q.toNat * Nat.pow 10 (-p).toNat < Nat.pow 10 p.toNat * Nat.pow 2 (-q).toNat
  let p := ((m.log2 : Int) + q) * 30103 / 100000
  if below p then p else if below (p + 1) then p + 1 else p + 2

/-- The best decimal number on the grid of multiples of `10 ^ u` among those that round to
`m * 2 ^ q`, if there is one. `narrow` says that the next smaller double is only half as far away
as the next larger one. -/
def nearestOnGrid (m : Nat) (q : Int) (narrow : Bool) (u : Int) : Option Nat :=
  let scale := Nat.pow 2 (q - 2).toNat * Nat.pow 10 (-u).toNat
  let unit := Nat.pow 2 (2 - q).toNat * Nat.pow 10 u.toNat
  let value := 4 * m * scale
  let low := (if narrow then 4 * m - 1 else 4 * m - 2) * scale
  let high := (4 * m + 2) * scale
  let inside (c : Nat) : Bool :=
    if m % 2 = 0 then low ≤ c * unit && c * unit ≤ high else low < c * unit && c * unit < high
  let c := value / unit
  let r := value % unit
  let lowerFirst : Bool := 2 * r < unit || (2 * r == unit && c % 2 == 0)
  match inside c, inside (c + 1) with
  | true, true => some (if lowerFirst then c else c + 1)
  | true, false => some c
  | false, true => some (c + 1)
  | false, false => none

/-- Tries grids from coarse to fine. The first one holds zero and the power of ten above the
number; seventeen digits always suffice. -/
def shortestFrom (m : Nat) (q : Int) (narrow : Bool) (p : Int) : (left : Nat) → Decimal
  | 0 => ⟨0, 0⟩
  | left + 1 =>
    let u := p - (17 - left : Nat)
    match nearestOnGrid m q narrow u with
    | some c => ⟨c, u⟩
    | none => shortestFrom m q narrow p left

def shortest (x : Binary64) : Decimal :=
  let m := x.significand
  let q := x.exponent
  if m = 0 then ⟨0, 0⟩
  else shortestFrom m q (x.fractionField == 0 && 1 < x.exponentField) (magnitude10 m q) 18

def positional (ds : List Char) (point : Int) : List Char :=
  let n := ds.length
  if point ≤ 0 then ['0', '.'] ++ List.replicate (-point).toNat '0' ++ ds
  else if n ≤ point.toNat then ds ++ List.replicate (point.toNat - n) '0' ++ ['.', '0']
  else ds.take point.toNat ++ '.' :: ds.drop point.toNat

def scientific (ds : List Char) (exponent : Int) : List Char :=
  let body := match ds with
    | [] => []
    | [d] => [d]
    | d :: rest => d :: '.' :: rest
  body ++ 'e' :: (if exponent < 0 then '-' else '+') :: Nat.toDigits 10 exponent.natAbs

def text (x : Binary64) : String :=
  let d := x.shortest
  let ds := Nat.toDigits 10 d.digits
  let point := d.exponent + ds.length
  let body :=
    if d.digits = 0 then ['0', '.', '0']
    else if -5 < point ∧ point ≤ 16 then positional ds point
    else scientific ds (point - 1)
  String.ofList (if x.isNegative then '-' :: body else body)

end Binary64

end CodeCache.Number
