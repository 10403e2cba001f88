/-! # Byte strings

Byte strings are lists of bytes. Numbers stand in them with the low byte first; a word is four
bytes. A word that runs past the end of the string is read as if zero bytes followed.

The digest of a byte string is its unkeyed BLAKE3 hash. The string is cut into chunks of 1024 bytes
and each chunk into blocks of 64. A chunk is a chain of compressions; two neighbouring trees are
joined by one more compression, where the left tree holds the greatest power of two of chunks that
leaves one to the right. Only the last compression carries the root flag, and its first 32 bytes are
the digest. -/

namespace CodeCache

abbrev Bytes := List UInt8

namespace Bytes

def toNat (bs : Bytes) : Nat := bs.foldr (fun b n => b.toNat + 256 * n) 0

def ofNat : (count : Nat) → Nat → Bytes
  | 0, _ => []
  | count + 1, n => UInt8.ofNat n :: ofNat count (n / 256)

def slice (bs : Bytes) (start stop : Nat) : Bytes := (bs.drop start).take (stop - start)

def word (bs : Bytes) (offset : Nat) : UInt32 := UInt32.ofNat (toNat (slice bs offset (offset + 4)))

def ofWord (w : UInt32) : Bytes := ofNat 4 w.toNat

/-- The complete words of a byte string in order; up to three bytes at the end are left out. -/
def words : Bytes → List UInt32
  | a :: b :: c :: d :: rest => UInt32.ofNat (toNat [a, b, c, d]) :: words rest
  | _ => []

def pieces (size : Nat) (bs : Bytes) : List Bytes :=
  if _h : bs = [] ∨ size = 0 then [] else bs.take size :: pieces size (bs.drop size)
termination_by bs.length
decreasing_by
  rw [not_or] at _h
  have := List.length_pos_iff.2 _h.1
  simp only [List.length_drop]
  omega

def hex (bs : Bytes) : String :=
  String.ofList <| bs.flatMap fun b => [Nat.digitChar (b.toNat / 16), Nat.digitChar (b.toNat % 16)]

@[simp] theorem length_ofNat (count n : Nat) : (ofNat count n).length = count := by
  induction count generalizing n with
  | zero => rfl
  | succ count ih => simp [ofNat, ih]

theorem toNat_lt (bs : Bytes) : toNat bs < Nat.pow 256 bs.length := by
  induction bs with
  | nil => decide
  | cons b bs ih =>
    have := b.toNat_lt
    simp only [toNat, List.foldr_cons, List.length_cons, Nat.pow_eq, Nat.pow_succ] at *
    omega

theorem toNat_ofNat (count n : Nat) (h : n < Nat.pow 256 count) : toNat (ofNat count n) = n := by
  induction count generalizing n with
  | zero => simp at h; simp [h, ofNat, toNat]
  | succ count ih =>
    have small : n / 256 < Nat.pow 256 count := by
      rw [Nat.div_lt_iff_lt_mul (by decide)]
      simpa [Nat.pow_succ] using h
    have tail := ih _ small
    simp only [ofNat, toNat, List.foldr_cons] at *
    rw [tail, UInt8.toNat_ofNat']
    omega

theorem ofNat_toNat (bs : Bytes) : ofNat bs.length (toNat bs) = bs := by
  induction bs with
  | nil => rfl
  | cons b bs ih =>
    have hb := b.toNat_lt
    simp only [List.length_cons, ofNat, toNat, List.foldr_cons]
    have low : UInt8.ofNat (b.toNat + 256 * toNat bs) = b := by
      apply UInt8.toNat_inj.mp
      rw [UInt8.toNat_ofNat']
      omega
    have high : (b.toNat + 256 * toNat bs) / 256 = toNat bs := by omega
    simp only [toNat] at low high ih
    rw [low, high, ih]

@[simp] theorem length_ofWord (w : UInt32) : (ofWord w).length = 4 := length_ofNat 4 _

end Bytes

end CodeCache

namespace CodeCache.Digest

abbrev Chain := Vector UInt32 8

abbrev Block := Vector UInt32 16

def initial : Chain :=
  #v[0x6A09E667, 0xBB67AE85, 0x3C6EF372, 0xA54FF53A, 0x510E527F, 0x9B05688C, 0x1F83D9AB, 0x5BE0CD19]

structure Node where
  chain : Chain
  block : Block
  counter : UInt64
  length : UInt32
  flags : UInt32

def chunkStart : UInt32 := 1
def chunkEnd : UInt32 := 2
def parentFlag : UInt32 := 4
def rootFlag : UInt32 := 8

def rotateRight (w : UInt32) (n : UInt32) : UInt32 := (w >>> n) ||| (w <<< (32 - n))

def stir (s : Block) (a b c d : Fin 16) (x y : UInt32) : Block :=
  let s := s.set a (s[a] + s[b] + x)
  let s := s.set d (rotateRight (s[d] ^^^ s[a]) 16)
  let s := s.set c (s[c] + s[d])
  let s := s.set b (rotateRight (s[b] ^^^ s[c]) 12)
  let s := s.set a (s[a] + s[b] + y)
  let s := s.set d (rotateRight (s[d] ^^^ s[a]) 8)
  let s := s.set c (s[c] + s[d])
  s.set b (rotateRight (s[b] ^^^ s[c]) 7)

def round (s m : Block) : Block :=
  let s := stir s 0 4 8 12 m[0] m[1]
  let s := stir s 1 5 9 13 m[2] m[3]
  let s := stir s 2 6 10 14 m[4] m[5]
  let s := stir s 3 7 11 15 m[6] m[7]
  let s := stir s 0 5 10 15 m[8] m[9]
  let s := stir s 1 6 11 12 m[10] m[11]
  let s := stir s 2 7 8 13 m[12] m[13]
  stir s 3 4 9 14 m[14] m[15]

def permute (m : Block) : Block :=
  #v[m[2], m[6], m[3], m[10], m[7], m[0], m[4], m[13],
    m[1], m[11], m[12], m[5], m[9], m[14], m[15], m[8]]

def rounds (s m : Block) : (left : Nat) → Block
  | 0 => s
  | left + 1 => rounds (round s m) (permute m) left

/-- The first half of the state after seven rounds, each word folded onto the second half. -/
def Node.compress (n : Node) : Chain :=
  let h := n.chain
  let s : Block :=
    #v[h[0], h[1], h[2], h[3], h[4], h[5], h[6], h[7],
      initial[0], initial[1], initial[2], initial[3],
      n.counter.toUInt32, (n.counter >>> 32).toUInt32, n.length, n.flags]
  let s := rounds s n.block 7
  #v[s[0] ^^^ s[8], s[1] ^^^ s[9], s[2] ^^^ s[10], s[3] ^^^ s[11],
    s[4] ^^^ s[12], s[5] ^^^ s[13], s[6] ^^^ s[14], s[7] ^^^ s[15]]

def blockOf (bs : Bytes) : Block :=
  let ws := (bs ++ List.replicate (64 - bs.length) 0).words
  Vector.ofFn fun i : Fin 16 => ws.getD i 0

def chunkFrom (counter : UInt64) (chain : Chain) (start : UInt32) : List Bytes → Node
  | [] => ⟨chain, blockOf [], counter, 0, start ||| chunkEnd⟩
  | [b] => ⟨chain, blockOf b, counter, b.length.toUInt32, start ||| chunkEnd⟩
  | b :: bs =>
    chunkFrom counter (Node.compress ⟨chain, blockOf b, counter, b.length.toUInt32, start⟩) 0 bs

def chunk (counter : UInt64) (bs : Bytes) : Node :=
  chunkFrom counter initial chunkStart (bs.pieces 64)

def parent (left right : Chain) : Node :=
  ⟨initial, left ++ right, 0, 64, parentFlag⟩

/-- The number of bytes in the left tree of a string that is longer than a chunk. -/
def leftSize (length : Nat) : Nat := 1024 * Nat.pow 2 ((length - 1) / 1024).log2

theorem leftSize_lt (length : Nat) (h : 1024 < length) : leftSize length < length := by
  have pos : (length - 1) / 1024 ≠ 0 := by omega
  have := Nat.log2_self_le pos
  rw [leftSize, Nat.pow_eq]
  omega

theorem leftSize_pos (length : Nat) : 0 < leftSize length := by
  have := Nat.two_pow_pos ((length - 1) / 1024).log2
  rw [leftSize, Nat.pow_eq]
  omega

def tree (counter : UInt64) (bs : Bytes) : Node :=
  if h : bs.length ≤ 1024 then chunk counter bs
  else
    let n := leftSize bs.length
    have := leftSize_lt bs.length (by omega)
    have := leftSize_pos bs.length
    let left := tree counter (bs.take n)
    let right := tree (counter + (n / 1024).toUInt64) (bs.drop n)
    parent left.compress right.compress
termination_by bs.length
decreasing_by
  · simp only [List.length_take]
    omega
  · simp only [List.length_drop]
    omega

def hash (bs : Bytes) : Bytes :=
  let top := tree 0 bs
  let root := { top with counter := 0, flags := top.flags ||| rootFlag }
  root.compress.toList.flatMap Bytes.ofWord

end CodeCache.Digest
