import CodeCache.Proofs.Acceptance

/-! # What a summary says of a header

A summary and a placeholder read the same length field, one for people and one for an engine. They
can be had of the same byte strings, up to the lengths that no engine string has, and tell the same
length. The words of a summary are those of the bytes, the length field among them. -/

namespace CodeCache

namespace Bytes

theorem length_lt_of_no_word {bs : Bytes}
    (short : ∀ a b c d rest, bs = a :: b :: c :: d :: rest → False) : bs.length < 4 := by
  match bs, short with
  | [], _ | [_], _ | [_, _], _ | [_, _, _], _ => simp
  | a :: b :: c :: d :: rest, short => exact (short a b c d rest rfl).elim

theorem length_words (bs : Bytes) : (words bs).length = bs.length / 4 := by
  fun_induction words bs with
  | case1 a b c d rest ih =>
    simp only [List.length_cons, ih]
    omega
  | case2 bs short =>
    have := length_lt_of_no_word short
    simp only [List.length_nil]
    omega

theorem getElem?_words (bs : Bytes) (i : Nat) :
    (words bs)[i]? = if i < bs.length / 4 then some (bs.word (4 * i)) else none := by
  fun_induction words bs generalizing i with
  | case1 a b c d rest ih =>
    have size : (a :: b :: c :: d :: rest).length / 4 = rest.length / 4 + 1 := by
      simp only [List.length_cons]
      omega
    rw [size]
    cases i with
    | zero => simp [word, slice]
    | succ i =>
      have later : word (a :: b :: c :: d :: rest) (4 * (i + 1)) = word rest (4 * i) := by
        rw [Nat.mul_succ, Nat.add_comm]
        exact word_append_right [a, b, c, d] rest (4 * i)
      simp only [List.getElem?_cons_succ, ih, later, Nat.add_lt_add_iff_right]
  | case2 bs short =>
    have := length_lt_of_no_word short
    rw [if_neg (by omega), List.getElem?_nil]

theorem word_take {bs : Bytes} {size offset : Nat} (inside : offset + 4 ≤ size) :
    word (bs.take size) offset = bs.word offset := by
  apply word_congr
  intro i _ before
  rw [List.getElem?_take_of_lt (Nat.lt_of_lt_of_le before inside)]

theorem toNat_word {bs : Bytes} {offset : Nat} (inside : offset + 4 ≤ bs.length) :
    ∃ a b c d : UInt8, slice bs offset (offset + 4) = [a, b, c, d] ∧
      (bs.word offset).toNat =
        a.toNat + 0x100 * b.toNat + 0x10000 * c.toNat + 0x1000000 * d.toNat := by
  have size : (slice bs offset (offset + 4)).length = 4 := by
    rw [length_slice]
    omega
  match bytes : slice bs offset (offset + 4), size with
  | [a, b, c, d], _ =>
    refine ⟨a, b, c, d, rfl, ?_⟩
    rw [word, bytes, UInt32.toNat_ofNat_of_lt' (toNat_lt_size rfl)]
    simp only [toNat, List.foldr_cons, List.foldr_nil]
    omega

end Bytes

theorem toNat_field (field : UInt32) :
    field.toNat = (Header.lengthOf field).toNat + if Header.flagOf field then 0x80000000 else 0 := by
  have small := field.toNat_lt
  have flag := flagOf_iff field
  rw [toNat_lengthOf]
  split
  · have := flag.1 ‹_›
    omega
  · have := mt flag.2 ‹_›
    omega

theorem Header.field_of_short {b : Bytes} (short : b.length < 12) :
    Header.field b = .error (.truncated b.length) := if_neg (Nat.not_le.2 short)

namespace Header.Summary

variable {b : Bytes}

theorem read_of_short (short : b.length < 12) : read b = .error (.truncated b.length) := by
  rw [read, Header.sourceLength, field_of_short short]
  rfl

theorem read_of_long (long : 12 ≤ b.length) :
    read b = .ok
      { blobSize := b.length
        sourceLength := lengthOf (b.word fieldOffset)
        isModule := flagOf (b.word fieldOffset)
        words := Bytes.words (b.take Header.size) } := by
  have field : Header.field b = .ok (b.word fieldOffset) := if_pos long
  rw [read, Header.sourceLength, Header.isModule, field]
  rfl

theorem toNat_placeholderLength (s : Summary) :
    s.placeholderLength.toNat = if s.sourceLength.toNat ≤ 1 then 0 else s.sourceLength.toNat := by
  rw [placeholderLength]
  by_cases long : 1 < s.sourceLength
  · have : 1 < s.sourceLength.toNat := UInt32.lt_iff_toNat_lt.1 long
    rw [if_pos long, if_neg (Nat.not_le.2 this)]
  · have : s.sourceLength.toNat ≤ 1 := UInt32.le_iff_toNat_le.1 (UInt32.not_lt.1 long)
    rw [if_neg long, if_pos this]
    rfl

end Header.Summary

namespace Placeholder

theorem ofBlob_of_short {b : Bytes} (short : b.length < 12) :
    ofBlob b = .error (.truncated b.length) := by
  rw [ofBlob, Header.sourceLength, Header.field_of_short short]
  rfl

theorem length_text (p : Placeholder) : p.text.length = p.length := by
  rw [text, String.length_ofList, length_chars]

end Placeholder

/-- A byte string has a summary exactly if its length field is there, and no placeholder without
one. The words of the summary are the complete words of the first 24 bytes; the third is the length
field, which is the length that the summary tells, below `0x80000000`, and the flag above it. The
placeholder is refused exactly if that length exceeds the greatest one, and otherwise it has as many
characters, and as many UTF-16 units, as the summary says. -/
theorem summary_agrees (b : Bytes) :
    (b.length < 12 →
      Header.Summary.read b = .error (.truncated b.length) ∧
      Placeholder.ofBlob b = .error (.truncated b.length)) ∧
    (12 ≤ b.length → ∃ s : Header.Summary, Header.Summary.read b = .ok s ∧
      s.blobSize = b.length ∧
      s.words.length = min 6 (b.length / 4) ∧
      (∀ i < min 6 (b.length / 4), ∃ w a₀ a₁ a₂ a₃, s.words[i]? = some w ∧
        b.slice (4 * i) (4 * i + 4) = [a₀, a₁, a₂, a₃] ∧
        w.toNat = a₀.toNat + 0x100 * a₁.toNat + 0x10000 * a₂.toNat + 0x1000000 * a₃.toNat) ∧
      s.sourceLength.toNat < 0x80000000 ∧
      (∃ w, s.words[2]? = some w ∧
        w.toNat = s.sourceLength.toNat + if s.isModule then 0x80000000 else 0) ∧
      (Header.maxSourceLength < s.sourceLength →
        Placeholder.ofBlob b = .error (.sourceTooLong s.sourceLength)) ∧
      (s.sourceLength ≤ Header.maxSourceLength → ∃ p, Placeholder.ofBlob b = .ok p ∧
        Text.units16 p.text = s.placeholderLength.toNat ∧
        p.text.length = s.placeholderLength.toNat)) := by
  refine ⟨fun short => ⟨Header.Summary.read_of_short short, Placeholder.ofBlob_of_short short⟩,
    fun long => ?_⟩
  have size : (b.take Header.size).length / 4 = min 6 (b.length / 4) := by
    rw [List.length_take]
    show min 24 b.length / 4 = _
    omega
  have words (i : Nat) (low : i < min 6 (b.length / 4)) :
      (Bytes.words (b.take Header.size))[i]? = some (b.word (4 * i)) := by
    have inside : 4 * i + 4 ≤ Header.size := by
      show 4 * i + 4 ≤ 24
      omega
    rw [Bytes.getElem?_words, size, if_pos low, Bytes.word_take inside]
  refine ⟨_, Header.Summary.read_of_long long, rfl, ?_, ?_, ?_, ?_, ?_, ?_⟩
  · rw [Bytes.length_words, size]
  · intro i low
    have inside : 4 * i + 4 ≤ b.length := by omega
    obtain ⟨a₀, a₁, a₂, a₃, bytes, value⟩ := Bytes.toNat_word inside
    exact ⟨b.word (4 * i), a₀, a₁, a₂, a₃, words i low, bytes, value⟩
  · show (Header.lengthOf _).toNat < _
    rw [toNat_lengthOf]
    omega
  · exact ⟨_, words 2 (by omega), toNat_field _⟩
  · intro large
    rw [Placeholder.ofBlob_eq long, Placeholder.ofLength, if_pos large]
  · intro small
    obtain ⟨p, made⟩ := Placeholder.ofLength_eq small
    have told := (Placeholder.length_ofLength made).trans
      (Header.Summary.toNat_placeholderLength _).symm
    exact ⟨p, (Placeholder.ofBlob_eq long).trans made, p.units16_text.trans told,
      p.length_text.trans told⟩

theorem summary_agrees_flagged :
    let b : Bytes := [0, 0, 0, 0, 0, 0, 0, 0, 5, 0, 0, 128, 7]
    12 ≤ b.length ∧ ∃ s, Header.Summary.read b = .ok s ∧ s.words.length = 3 ∧
      s.sourceLength = 5 ∧ s.isModule = true ∧ s.sourceLength ≤ Header.maxSourceLength ∧
      ∃ p, Placeholder.ofBlob b = .ok p ∧ Text.units16 p.text = 5 := by
  intro b
  obtain ⟨_, agrees⟩ := summary_agrees b
  have long : 12 ≤ b.length := by decide
  obtain ⟨s, read, _, words, _, _, _, _, placeholder⟩ := agrees long
  have fields : s.sourceLength = 5 ∧ s.isModule = true := by
    cases read.symm.trans (Header.Summary.read_of_long long)
    decide
  have small : s.sourceLength ≤ Header.maxSourceLength := by
    rw [fields.1]
    decide
  obtain ⟨p, made, units, _⟩ := placeholder small
  refine ⟨long, s, read, words.trans (by decide), fields.1, fields.2, small, p, made, ?_⟩
  rw [units, Header.Summary.placeholderLength, fields.1]
  rfl

end CodeCache
