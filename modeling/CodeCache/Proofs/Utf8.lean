import CodeCache.Text

/-! # Reading back UTF-8

Every text is read back from its UTF-8 bytes. Reading takes one character off the front of a byte
string at a time, in four widths, and the bytes of a character are read as that character. Bytes
that are read as a text are the ones that it is written with. -/

namespace CodeCache.Text.Utf8

variable (index : Nat) (done : List Char) {a b c d : UInt8} (rest : Bytes)

theorem within_eq_true {low high : Nat} :
    within low high a = true ↔ low ≤ a.toNat ∧ a.toNat ≤ high := by
  simp [within]

theorem within_eq_false {low high : Nat} :
    within low high a = false ↔ a.toNat < low ∨ high < a.toNat := by
  rw [← Bool.not_eq_true, within_eq_true]
  omega

theorem decodeFrom_one (ha : a.toNat < 0x80) :
    decodeFrom index done (a :: rest) =
      decodeFrom (index + 1) (Char.ofNat a.toNat :: done) rest := by
  rw [decodeFrom.eq_def]
  simp only [ha, if_true]

theorem decodeFrom_two (ha : 0xC2 ≤ a.toNat ∧ a.toNat ≤ 0xDF)
    (hb : 0x80 ≤ b.toNat ∧ b.toNat ≤ 0xBF) :
    decodeFrom index done (a :: b :: rest) =
      decodeFrom (index + 2) (Char.ofNat (a.toNat % 32 * 64 + low6 b) :: done) rest := by
  have notOne : ¬a.toNat < 0x80 := by omega
  rw [decodeFrom.eq_def]
  simp only [notOne, within_eq_true.2 ha, within_eq_true.2 hb, if_true, if_false]

theorem decodeFrom_three (ha : 0xE0 ≤ a.toNat ∧ a.toNat ≤ 0xEF)
    (hb : (second3 a).1 ≤ b.toNat ∧ b.toNat ≤ (second3 a).2)
    (hc : 0x80 ≤ c.toNat ∧ c.toNat ≤ 0xBF) :
    decodeFrom index done (a :: b :: c :: rest) =
      decodeFrom (index + 3)
        (Char.ofNat (a.toNat % 16 * 4096 + low6 b * 64 + low6 c) :: done) rest := by
  have notOne : ¬a.toNat < 0x80 := by omega
  have notTwo : within 0xC2 0xDF a = false := within_eq_false.2 (by omega)
  rw [decodeFrom.eq_def]
  simp only [notOne, notTwo, within_eq_true.2 ha, within_eq_true.2 hb, within_eq_true.2 hc,
    Bool.not_true, Bool.false_eq_true, if_true, if_false]

theorem decodeFrom_four (ha : 0xF0 ≤ a.toNat ∧ a.toNat ≤ 0xF4)
    (hb : (second4 a).1 ≤ b.toNat ∧ b.toNat ≤ (second4 a).2)
    (hc : 0x80 ≤ c.toNat ∧ c.toNat ≤ 0xBF) (hd : 0x80 ≤ d.toNat ∧ d.toNat ≤ 0xBF) :
    decodeFrom index done (a :: b :: c :: d :: rest) =
      decodeFrom (index + 4)
        (Char.ofNat (a.toNat % 8 * 262144 + low6 b * 4096 + low6 c * 64 + low6 d) :: done)
        rest := by
  have notOne : ¬a.toNat < 0x80 := by omega
  have notTwo : within 0xC2 0xDF a = false := within_eq_false.2 (by omega)
  have notThree : within 0xE0 0xEF a = false := within_eq_false.2 (by omega)
  rw [decodeFrom.eq_def]
  simp only [notOne, notTwo, notThree, within_eq_true.2 ha, within_eq_true.2 hb,
    within_eq_true.2 hc, within_eq_true.2 hd, Bool.not_true, Bool.false_eq_true, if_true, if_false]

theorem decodeFrom_utf8EncodeChar (char : Char) :
    ∃ next, decodeFrom index done (String.utf8EncodeChar char ++ rest) =
      decodeFrom next (char :: done) rest := by
  -- The gap of the surrogates is what keeps the second byte of three inside its limits.
  have scalar : char.toNat < 0xD800 ∨ 0xDFFF < char.toNat ∧ char.toNat < 0x110000 := char.valid
  have back : Char.ofNat char.toNat = char := Char.ofNat_toNat char
  simp only [Char.toNat] at scalar back
  simp only [String.utf8EncodeChar]
  generalize char.val.toNat = v at scalar back
  split
  case isTrue one =>
    have ha := UInt8.toNat_ofNat_of_lt' (show v < 256 by omega)
    refine ⟨index + 1, ?_⟩
    rw [List.singleton_append, decodeFrom_one _ _ _ (by omega), ha, back]
  split
  case isTrue two =>
    have ha := UInt8.toNat_ofNat_of_lt' (show v / 64 % 0x20 + 0xc0 < 256 by omega)
    have hb := UInt8.toNat_ofNat_of_lt' (show v % 0x40 + 0x80 < 256 by omega)
    refine ⟨index + 2, ?_⟩
    simp only [List.cons_append, List.nil_append]
    rw [decodeFrom_two _ _ _ (by omega) (by omega), low6, ha, hb, ← back]
    congr 3
    omega
  split
  case isTrue three =>
    have ha := UInt8.toNat_ofNat_of_lt' (show v / 4096 % 0x10 + 0xe0 < 256 by omega)
    have hb := UInt8.toNat_ofNat_of_lt' (show v / 64 % 0x40 + 0x80 < 256 by omega)
    have hc := UInt8.toNat_ofNat_of_lt' (show v % 0x40 + 0x80 < 256 by omega)
    refine ⟨index + 3, ?_⟩
    simp only [List.cons_append, List.nil_append]
    rw [decodeFrom_three _ _ _ (by omega) ?_ (by omega), low6, low6, ha, hb, hc, ← back]
    · congr 3
      omega
    · simp only [second3, ha, hb]
      split <;> split <;> omega
  case isFalse =>
    have ha := UInt8.toNat_ofNat_of_lt' (show v / 262144 % 0x08 + 0xf0 < 256 by omega)
    have hb := UInt8.toNat_ofNat_of_lt' (show v / 4096 % 0x40 + 0x80 < 256 by omega)
    have hc := UInt8.toNat_ofNat_of_lt' (show v / 64 % 0x40 + 0x80 < 256 by omega)
    have hd := UInt8.toNat_ofNat_of_lt' (show v % 0x40 + 0x80 < 256 by omega)
    refine ⟨index + 4, ?_⟩
    simp only [List.cons_append, List.nil_append]
    rw [decodeFrom_four _ _ _ (by omega) ?_ (by omega) (by omega), low6, low6, low6, ha, hb, hc, hd,
      ← back]
    · congr 3
      omega
    · simp only [second4, ha, hb]
      split <;> split <;> omega

theorem decodeFrom_flatMap (chars : List Char) :
    decodeFrom index done (chars.flatMap String.utf8EncodeChar) =
      .ok (done.reverse ++ chars) := by
  induction chars generalizing index done with
  | nil => simp [decodeFrom]
  | cons char chars ih =>
    obtain ⟨next, step⟩ :=
      decodeFrom_utf8EncodeChar index done (chars.flatMap String.utf8EncodeChar) char
    rw [List.flatMap_cons, step, ih]
    simp

theorem decode_encode (s : String) : decode (encode s) = .ok s := by
  rw [decode, encode, decodeFrom_flatMap]
  simp [Except.map]

theorem decode?_encode (s : String) : decode? (encode s) = some s := by
  rw [decode?, decode_encode]
  rfl

theorem toNat_ofNat {n : Nat} (h : n.isValidChar) : (Char.ofNat n).val.toNat = n := by
  rw [Char.ofNat, dif_pos h]
  rfl

theorem eq_ofNat {n : Nat} (h : n = a.toNat) : UInt8.ofNat n = a := by
  rw [h, UInt8.ofNat_toNat]

theorem utf8EncodeChar_one (ha : a.toNat < 0x80) :
    String.utf8EncodeChar (Char.ofNat a.toNat) = [a] := by
  have value := toNat_ofNat (n := a.toNat) (.inl (by omega))
  simp only [String.utf8EncodeChar, value]
  rw [if_pos (by omega), eq_ofNat rfl]

theorem utf8EncodeChar_two (ha : 0xC2 ≤ a.toNat ∧ a.toNat ≤ 0xDF)
    (hb : 0x80 ≤ b.toNat ∧ b.toNat ≤ 0xBF) :
    String.utf8EncodeChar (Char.ofNat (a.toNat % 32 * 64 + low6 b)) = [a, b] := by
  rw [low6]
  have value := toNat_ofNat (n := a.toNat % 32 * 64 + b.toNat % 64) (.inl (by omega))
  simp only [String.utf8EncodeChar, value]
  rw [if_neg (by omega), if_pos (by omega), eq_ofNat (a := a) (by omega),
    eq_ofNat (a := b) (by omega)]

theorem utf8EncodeChar_three (ha : 0xE0 ≤ a.toNat ∧ a.toNat ≤ 0xEF)
    (hb : (second3 a).1 ≤ b.toNat ∧ b.toNat ≤ (second3 a).2)
    (hc : 0x80 ≤ c.toNat ∧ c.toNat ≤ 0xBF) :
    String.utf8EncodeChar (Char.ofNat (a.toNat % 16 * 4096 + low6 b * 64 + low6 c)) =
      [a, b, c] := by
  -- The limits of the second byte keep the value above two bytes and out of the surrogates.
  have second : 0x80 ≤ b.toNat ∧ b.toNat ≤ 0xBF ∧ (a.toNat = 0xE0 → 0xA0 ≤ b.toNat) ∧
      (a.toNat = 0xED → b.toNat ≤ 0x9F) := by
    simp only [second3] at hb
    split at hb <;> split at hb <;> omega
  rw [low6, low6]
  have valid : (a.toNat % 16 * 4096 + b.toNat % 64 * 64 + c.toNat % 64).isValidChar := by
    unfold Nat.isValidChar
    omega
  have value := toNat_ofNat valid
  simp only [String.utf8EncodeChar, value]
  rw [if_neg (by omega), if_neg (by omega), if_pos (by omega), eq_ofNat (a := a) (by omega),
    eq_ofNat (a := b) (by omega), eq_ofNat (a := c) (by omega)]

theorem utf8EncodeChar_four (ha : 0xF0 ≤ a.toNat ∧ a.toNat ≤ 0xF4)
    (hb : (second4 a).1 ≤ b.toNat ∧ b.toNat ≤ (second4 a).2)
    (hc : 0x80 ≤ c.toNat ∧ c.toNat ≤ 0xBF) (hd : 0x80 ≤ d.toNat ∧ d.toNat ≤ 0xBF) :
    String.utf8EncodeChar
        (Char.ofNat (a.toNat % 8 * 262144 + low6 b * 4096 + low6 c * 64 + low6 d)) =
      [a, b, c, d] := by
  have second : 0x80 ≤ b.toNat ∧ b.toNat ≤ 0xBF ∧ (a.toNat = 0xF0 → 0x90 ≤ b.toNat) ∧
      (a.toNat = 0xF4 → b.toNat ≤ 0x8F) := by
    simp only [second4] at hb
    split at hb <;> split at hb <;> omega
  rw [low6, low6, low6]
  have valid : (a.toNat % 8 * 262144 + b.toNat % 64 * 4096 + c.toNat % 64 * 64 +
      d.toNat % 64).isValidChar := by
    unfold Nat.isValidChar
    omega
  have value := toNat_ofNat valid
  simp only [String.utf8EncodeChar, value]
  rw [if_neg (by omega), if_neg (by omega), if_neg (by omega), eq_ofNat (a := a) (by omega),
    eq_ofNat (a := b) (by omega), eq_ofNat (a := c) (by omega), eq_ofNat (a := d) (by omega)]

theorem flatMap_of_step {char : Char} {done chars : List Char} {front rest : Bytes}
    (bytes : String.utf8EncodeChar char = front)
    (h : ∃ more, chars = (char :: done).reverse ++ more ∧
      rest = more.flatMap String.utf8EncodeChar) :
    ∃ more, chars = done.reverse ++ more ∧ front ++ rest = more.flatMap String.utf8EncodeChar := by
  obtain ⟨more, rfl, rfl⟩ := h
  exact ⟨char :: more, by simp, by rw [List.flatMap_cons, bytes]⟩

theorem eq_flatMap_of_decodeFrom {bs : Bytes} {chars : List Char}
    (h : decodeFrom index done bs = .ok chars) :
    ∃ more, chars = done.reverse ++ more ∧ bs = more.flatMap String.utf8EncodeChar := by
  fun_induction decodeFrom index done bs with
  | case1 =>
    cases h
    exact ⟨[], by simp⟩
  | case2 index done a rest ha ih => exact flatMap_of_step (utf8EncodeChar_one ha) (ih h)
  | case4 index done a _ ha b rest hb ih =>
    exact flatMap_of_step (utf8EncodeChar_two (within_eq_true.1 ha) (within_eq_true.1 hb)) (ih h)
  | case9 index done a _ _ ha b hb c rest hc ih =>
    have hb : within (second3 a).1 (second3 a).2 b = true := by simpa using hb
    have bytes :=
      utf8EncodeChar_three (within_eq_true.1 ha) (within_eq_true.1 hb) (within_eq_true.1 hc)
    exact flatMap_of_step bytes (ih h)
  | case16 index done a _ _ _ ha b hb c hc d rest hd ih =>
    have hb : within (second4 a).1 (second4 a).2 b = true := by simpa using hb
    have hc : within 0x80 0xBF c = true := by simpa using hc
    have bytes := utf8EncodeChar_four (within_eq_true.1 ha) (within_eq_true.1 hb)
      (within_eq_true.1 hc) (within_eq_true.1 hd)
    exact flatMap_of_step bytes (ih h)
  | case3 | case5 | case6 | case7 | case8 | case10 => cases h
  | case11 | case12 | case13 | case14 | case15 | case17 | case18 => cases h

theorem eq_encode_of_decode? {bs : Bytes} {s : String} (h : decode? bs = some s) :
    bs = encode s := by
  rw [decode?, decode] at h
  cases read : decodeFrom 0 [] bs with
  | error flaw =>
    rw [read] at h
    cases h
  | ok chars =>
    rw [read] at h
    cases h
    obtain ⟨more, rfl, bytes⟩ := eq_flatMap_of_decodeFrom 0 [] read
    rw [bytes, encode, String.toList_ofList]

end CodeCache.Text.Utf8
