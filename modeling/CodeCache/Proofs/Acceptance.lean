import CodeCache.Engine.State
import CodeCache.Header
import CodeCache.Proofs.SourceSize

/-! # Which blobs an engine accepts

A word is determined by its four bytes, and a word that was written is read back from its place. An
engine sees a blob together with the placeholder of its recorded length. The placeholder always
parses, imports nothing and has no effect. Its length gives back the recorded field unless the
module flag is missing or the length is one, so that acceptance is a property of the bytes alone. -/

namespace CodeCache.Bytes

theorem toNat_inj {a b : Bytes} (hl : a.length = b.length) (h : toNat a = toNat b) : a = b := by
  rw [← ofNat_toNat a, ← ofNat_toNat b, hl, h]

theorem length_slice (bs : Bytes) (start stop : Nat) :
    (slice bs start stop).length = min (stop - start) (bs.length - start) := by
  simp [slice]

theorem getElem?_slice (bs : Bytes) (start stop i : Nat) :
    (slice bs start stop)[i]? = if i < stop - start then bs[start + i]? else none := by
  simp [slice, List.getElem?_take]

theorem slice_congr {a b : Bytes} {start stop : Nat}
    (h : ∀ i, start ≤ i → i < stop → a[i]? = b[i]?) : slice a start stop = slice b start stop := by
  apply List.ext_getElem?
  intro i
  rw [getElem?_slice, getElem?_slice]
  split
  · exact h _ (by omega) (by omega)
  · rfl

theorem word_congr {a b : Bytes} {offset : Nat}
    (h : ∀ i, offset ≤ i → i < offset + 4 → a[i]? = b[i]?) : a.word offset = b.word offset := by
  rw [word, word, slice_congr h]

theorem toNat_lt_size {bs : Bytes} (h : bs.length = 4) : toNat bs < UInt32.size := by
  have small := toNat_lt bs
  rw [h] at small
  exact small

/-- Inside both strings two words agree only when all their bytes do. -/
theorem word_eq_iff {a b : Bytes} {offset : Nat} (ha : offset + 4 ≤ a.length)
    (hb : offset + 4 ≤ b.length) :
    a.word offset = b.word offset ↔ ∀ i, offset ≤ i → i < offset + 4 → a[i]? = b[i]? := by
  refine ⟨fun h i hi hi' => ?_, word_congr⟩
  have la : (slice a offset (offset + 4)).length = 4 := by rw [length_slice]; omega
  have lb : (slice b offset (offset + 4)).length = 4 := by rw [length_slice]; omega
  have numbers := congrArg UInt32.toNat h
  rw [word, word, UInt32.toNat_ofNat_of_lt' (toNat_lt_size la),
    UInt32.toNat_ofNat_of_lt' (toNat_lt_size lb)] at numbers
  have bytes := congrArg (·[i - offset]?) (toNat_inj (la.trans lb.symm) numbers)
  simpa [getElem?_slice, show i - offset < 4 by omega, show offset + (i - offset) = i by omega]
    using bytes

theorem word_append_right (front bs : Bytes) (offset : Nat) :
    word (front ++ bs) (front.length + offset) = word bs offset := by
  have cut : slice (front ++ bs) (front.length + offset) (front.length + offset + 4) =
      slice bs offset (offset + 4) := by
    rw [slice, slice, ← List.drop_drop, List.drop_left]
    congr 1
    omega
  rw [word, cut, word]

theorem word_ofWord_append (w : UInt32) (rest : Bytes) : word (ofWord w ++ rest) 0 = w := by
  have cut : slice (ofWord w ++ rest) 0 (0 + 4) = ofWord w := List.take_left' (length_ofWord w)
  rw [word, cut, ofWord, toNat_ofNat 4 w.toNat w.toNat_lt, UInt32.ofNat_toNat]

theorem word_flatMap {ws : List UInt32} {i : Nat} {w : UInt32} (h : ws[i]? = some w)
    (rest : Bytes) : word (ws.flatMap ofWord ++ rest) (4 * i) = w := by
  induction ws generalizing i with
  | nil => cases h
  | cons v ws ih =>
    rw [List.flatMap_cons, List.append_assoc]
    cases i with
    | zero =>
      cases h
      exact word_ofWord_append w _
    | succ i =>
      have place : 4 * (i + 1) = (ofWord v).length + 4 * i := by rw [length_ofWord]; omega
      rw [place, word_append_right]
      exact ih h

end CodeCache.Bytes

namespace CodeCache

namespace Placeholder

def script : Placeholder → Script
  | empty => {}
  | literal n => { body := [.expr (.str (String.ofList (List.replicate n filler)))] }

theorem scanString_fillers (n : Nat) (done : List Char) :
    Script.Token.scanString '"' done (List.replicate n filler ++ ['"']) =
      some (done.reverse ++ List.replicate n filler, []) := by
  have notBreak : filler ≠ '\n' := by decide
  have notQuote : filler ≠ '"' := by decide
  have notSlash : filler ≠ '\\' := by decide
  induction n generalizing done with
  | zero => simp [Script.Token.scanString]
  | succ n ih =>
    rw [List.replicate_succ, List.cons_append, Script.Token.scanString.eq_def]
    simp only [if_neg notBreak, if_neg notQuote, if_neg notSlash]
    rw [ih, List.reverse_cons, List.append_assoc, List.singleton_append]

theorem scan_chars (n : Nat) :
    Script.Token.scan (literal n).chars = .ok [.str (String.ofList (List.replicate n filler))] := by
  have notSpace : ¬Script.Token.isSpace '"' = true := by decide
  have notLine : ¬('"' = '/' ∧ (List.replicate n filler ++ ['"']).head? = some '/') := by simp
  have notBlock : ¬('"' = '/' ∧ (List.replicate n filler ++ ['"']).head? = some '*') := by simp
  have shape : (literal n).chars = '"' :: (List.replicate n filler ++ ['"']) := rfl
  rw [shape, Script.Token.scan, if_neg notSpace, if_neg notLine, if_neg notBlock,
    if_pos (Or.inl rfl)]
  split
  · rename_i stopped
    rw [scanString_fillers] at stopped
    cases stopped
  · rename_i scanned
    rw [scanString_fillers] at scanned
    cases scanned
    rw [Script.Token.scan]
    rfl

theorem parse_text (p : Placeholder) : Script.parse p.text = .ok p.script := by
  cases p with
  | empty =>
    rw [Script.parse, text, String.toList_ofList, chars, Script.Token.scan]
    rfl
  | literal n =>
    rw [Script.parse, text, String.toList_ofList, scan_chars]
    rfl

theorem length_ofLength {length : UInt32} {p : Placeholder} (h : ofLength length = .ok p) :
    p.length = if length.toNat ≤ 1 then 0 else length.toNat := by
  rw [ofLength] at h
  split at h
  · cases h
  split at h
  · cases h
    rw [if_pos (by assumption)]
    rfl
  · cases h
    rw [if_neg (by assumption), Placeholder.length]
    omega

theorem ofLength_eq {length : UInt32} (h : length ≤ Header.maxSourceLength) :
    ∃ p, ofLength length = .ok p := by
  rw [ofLength, if_neg (UInt32.not_lt.2 h)]
  split
  · exact ⟨_, rfl⟩
  · exact ⟨_, rfl⟩

theorem ofBlob_eq {blob : Bytes} (h : Header.fieldOffset + 4 ≤ blob.length) :
    ofBlob blob = ofLength (Header.lengthOf (blob.word Header.fieldOffset)) := by
  rw [ofBlob, Header.sourceLength, Header.field, if_pos h]
  rfl

end Placeholder

theorem toNat_lengthOf (field : UInt32) :
    (Header.lengthOf field).toNat = field.toNat % 2147483648 := by
  rw [Header.lengthOf, UInt32.toNat_mod]
  rfl

theorem flagOf_iff (field : UInt32) : Header.flagOf field = true ↔ 2147483648 ≤ field.toNat := by
  rw [Header.flagOf, decide_eq_true_iff, UInt32.le_iff_toNat_le]
  rfl

theorem toNat_sourceField (units : Nat) :
    (Blob.sourceField units).toNat = units % 2147483648 + 2147483648 := by
  rw [Blob.sourceField, UInt32.toNat_ofNat_of_lt']
  show units % 2147483648 + 2147483648 < 4294967296
  omega

/-- The placeholder has the recorded length unless that is one, and then it is too short. -/
theorem eq_sourceField_iff {field : UInt32} {p : Placeholder}
    (h : Placeholder.ofLength (Header.lengthOf field) = .ok p) :
    field = Blob.sourceField p.length ↔
      Header.flagOf field = true ∧ Header.lengthOf field ≠ 1 := by
  have length := Placeholder.length_ofLength h
  rw [toNat_lengthOf] at length
  rw [← UInt32.toNat_inj, toNat_sourceField, flagOf_iff, Ne, ← UInt32.toNat_inj, toNat_lengthOf,
    length]
  have := field.toNat_lt
  show _ ↔ _ ∧ ¬_ = 1
  split <;> omega

theorem Blob.decode_eq_ok_iff {blob : Bytes} {units : Nat} {f : Blob.Fingerprint}
    {offsets : List Nat} {s : Script} :
    Blob.decode blob units f offsets = .ok s ↔
      Header.size ≤ blob.length ∧ blob.word 0 = Blob.magic ∧
        blob.word Header.fieldOffset = Blob.sourceField units ∧
        (∀ o ∈ offsets, f[(o - 12) / 4]? = some (blob.word o)) ∧
        blob.word 4 = Blob.checksum (blob.drop Header.size) ∧
        Payload.decode (blob.drop Header.size) = some s := by
  constructor
  · intro h
    simp only [Blob.decode] at h
    split at h
    · cases h
    split at h
    · cases h
    split at h
    · cases h
    split at h
    · cases h
    rename_i agreed
    split at h
    · cases h
    split at h
    · rename_i read
      cases h
      refine ⟨by omega, Decidable.not_not.1 ‹_›, Decidable.not_not.1 ‹_›, ?_,
        Decidable.not_not.1 ‹_›, read⟩
      intro o ho
      have agrees := List.find?_eq_none.1 agreed o ho
      simpa [Blob.agrees] using agrees
    · cases h
  · rintro ⟨complete, magic, length, fingerprint, checksum, read⟩
    have agreed : offsets.find? (fun o => !Blob.agrees blob f o) = none := by
      rw [List.find?_eq_none]
      intro o ho
      simp [Blob.agrees, fingerprint o ho]
    simp only [Blob.decode, if_neg (Nat.not_lt.2 complete), magic, length, checksum, ne_eq,
      not_true_eq_false, if_false, agreed, read]

/-- What an engine requires of a patched blob. No placeholder has length one. -/
structure Build.Accepts (b : Build) (blob : Bytes) : Prop where
  complete : Header.size ≤ blob.length
  magic : blob.word 0 = Blob.magic
  flagged : Header.flagOf (blob.word Header.fieldOffset) = true
  length : Header.lengthOf (blob.word Header.fieldOffset) ≠ 1
  fingerprint : ∀ o ∈ b.checkedOffsets, b.fingerprint[(o - 12) / 4]? = some (blob.word o)
  checksum : blob.word 4 = Blob.checksum (blob.drop Header.size)
  payload : ∃ s, Payload.decode (blob.drop Header.size) = some s

namespace Build

theorem decode_eq_ok_iff {b : Build} {blob : Bytes} {p : Placeholder} {s : Script}
    (h : Placeholder.ofBlob blob = .ok p) :
    Blob.decode blob p.length b.fingerprint b.checkedOffsets = .ok s ↔
      b.Accepts blob ∧ Payload.decode (blob.drop Header.size) = some s := by
  have field (complete : Header.size ≤ blob.length) :
      blob.word Header.fieldOffset = Blob.sourceField p.length ↔
        Header.flagOf (blob.word Header.fieldOffset) = true ∧
          Header.lengthOf (blob.word Header.fieldOffset) ≠ 1 := by
    apply eq_sourceField_iff
    rwa [Placeholder.ofBlob_eq (Nat.le_trans (by decide) complete)] at h
  rw [Blob.decode_eq_ok_iff]
  constructor
  · rintro ⟨complete, magic, length, fingerprint, checksum, read⟩
    obtain ⟨flagged, length⟩ := (field complete).1 length
    exact ⟨⟨complete, magic, flagged, length, fingerprint, checksum, ⟨s, read⟩⟩, read⟩
  · rintro ⟨accepted, read⟩
    have length := (field accepted.complete).2 ⟨accepted.flagged, accepted.length⟩
    exact ⟨accepted.complete, accepted.magic, length, accepted.fingerprint, accepted.checksum, read⟩

theorem Accepts.decode {b : Build} {blob : Bytes} {p : Placeholder} (accepted : b.Accepts blob)
    (h : Placeholder.ofBlob blob = .ok p) :
    ∃ s, Payload.decode (blob.drop Header.size) = some s ∧
      Blob.decode blob p.length b.fingerprint b.checkedOffsets = .ok s := by
  obtain ⟨s, read⟩ := accepted.payload
  exact ⟨s, read, (decode_eq_ok_iff h).2 ⟨accepted, read⟩⟩

theorem decode_of_not_accepts {b : Build} {blob : Bytes} {p : Placeholder}
    (refused : ¬b.Accepts blob) (h : Placeholder.ofBlob blob = .ok p) :
    ∃ rejection, Blob.decode blob p.length b.fingerprint b.checkedOffsets = .error rejection := by
  cases outcome : Blob.decode blob p.length b.fingerprint b.checkedOffsets with
  | error rejection => exact ⟨rejection, rfl⟩
  | ok s => exact absurd ((decode_eq_ok_iff h).1 outcome).1 refused

end Build

namespace Blob

def Fingerprint.bytes (f : Fingerprint) : Bytes := f.toList.flatMap Bytes.ofWord

/-- All of a blob but its build words is that of a script with a source of the given length. -/
structure Seals (blob : Bytes) (s : Script) (units : Nat) : Prop where
  complete : Header.size ≤ blob.length
  magic : blob.word 0 = Blob.magic
  checksum : blob.word 4 = Blob.checksum (Payload.encode s)
  field : blob.word Header.fieldOffset = sourceField units
  payload : blob.drop Header.size = Payload.encode s

def header (s : Script) (units : Nat) (f : Fingerprint) : List UInt32 :=
  magic :: checksum (Payload.encode s) :: sourceField units :: f.toList

theorem encode_eq (s : Script) (units : Nat) (f : Fingerprint) :
    encode s units f = (header s units f).flatMap Bytes.ofWord ++ Payload.encode s := by
  simp [encode, header]

theorem length_flatMap_ofWord (ws : List UInt32) :
    (ws.flatMap Bytes.ofWord).length = 4 * ws.length := by
  induction ws with
  | nil => rfl
  | cons w ws ih =>
    rw [List.flatMap_cons, List.length_append, ih, Bytes.length_ofWord, List.length_cons]
    omega

theorem length_header (s : Script) (units : Nat) (f : Fingerprint) :
    ((header s units f).flatMap Bytes.ofWord).length = Header.size := by
  rw [length_flatMap_ofWord, header]
  simp [Header.size]

theorem length_encode (s : Script) (units : Nat) (f : Fingerprint) :
    (encode s units f).length = Header.size + (Payload.encode s).length := by
  rw [encode_eq, List.length_append, length_header]

theorem seals_encode (s : Script) (units : Nat) (f : Fingerprint) :
    Seals (encode s units f) s units := by
  rw [encode_eq]
  constructor
  · rw [List.length_append, length_header]
    exact Nat.le_add_right _ _
  · exact Bytes.word_flatMap (i := 0) rfl _
  · exact Bytes.word_flatMap (i := 1) rfl _
  · exact Bytes.word_flatMap (i := 2) rfl _
  · exact List.drop_left' (length_header s units f)

theorem word_encode (s : Script) (units : Nat) (f : Fingerprint) {o : Nat}
    (h : o = 12 ∨ o = 16 ∨ o = 20) : f[(o - 12) / 4]? = some ((encode s units f).word o) := by
  have word (i : Nat) (hi : i < 3) :
      f[i]? = some ((encode s units f).word (4 * (i + 3))) := by
    have found : (header s units f)[i + 3]? = some f[i] := by simp [header]
    rw [encode_eq, Bytes.word_flatMap found]
    simp [hi]
  rcases h with rfl | rfl | rfl
  · exact word 0 (by decide)
  · exact word 1 (by decide)
  · exact word 2 (by decide)

/-- The build words of a compiled blob, byte by byte. -/
theorem getElem?_encode (s : Script) (units : Nat) (f : Fingerprint) {i : Nat} (low : 12 ≤ i)
    (high : i < 24) : (encode s units f)[i]? = f.bytes[i - 12]? := by
  have front : ([magic, checksum (Payload.encode s), sourceField units].flatMap
      Bytes.ofWord).length = 12 := length_flatMap_ofWord _
  have back : f.bytes.length = 12 := by
    rw [Fingerprint.bytes, length_flatMap_ofWord, Vector.length_toList]
  have shape : encode s units f =
      [magic, checksum (Payload.encode s), sourceField units].flatMap Bytes.ofWord ++
        (f.bytes ++ Payload.encode s) := by simp [encode, Fingerprint.bytes]
  rw [shape, List.getElem?_append_right (by omega), front, List.getElem?_append_left (by omega)]

namespace Seals

variable {blob other : Bytes} {s : Script} {units : Nat}

theorem of_outside (sealed : Seals blob s units) (length : other.length = blob.length)
    (same : ∀ i, ¬(12 ≤ i ∧ i < 24) → other[i]? = blob[i]?) : Seals other s units := by
  have word (o : Nat) (h : o + 4 ≤ 12) : other.word o = blob.word o := by
    apply Bytes.word_congr
    intro i _ high
    exact same i (by omega)
  constructor
  · rw [length]
    exact sealed.complete
  · rw [word 0 (by decide)]
    exact sealed.magic
  · rw [word 4 (by decide)]
    exact sealed.checksum
  · rw [word Header.fieldOffset (by decide)]
    exact sealed.field
  · rw [← sealed.payload]
    apply List.ext_getElem?
    intro i
    rw [List.getElem?_drop, List.getElem?_drop]
    exact same _ (by simp only [Header.size]; omega)

theorem toNat_lengthOf (sealed : Seals blob s units)
    (small : units ≤ Header.maxSourceLength.toNat) :
    (Header.lengthOf (blob.word Header.fieldOffset)).toNat = units := by
  have bound : Header.maxSourceLength.toNat = 536870888 := rfl
  rw [sealed.field, CodeCache.toNat_lengthOf, toNat_sourceField]
  omega

/-- The placeholder is as long as the source, or empty if the quotes do not fit. -/
theorem placeholder (sealed : Seals blob s units)
    (small : units ≤ Header.maxSourceLength.toNat) :
    ∃ p, Placeholder.ofBlob blob = .ok p ∧ p.length = if units ≤ 1 then 0 else units := by
  have recorded := sealed.toNat_lengthOf small
  have complete : Header.fieldOffset + 4 ≤ blob.length :=
    Nat.le_trans (by decide) sealed.complete
  obtain ⟨p, made⟩ := Placeholder.ofLength_eq (UInt32.le_iff_toNat_le.2 (recorded.symm ▸ small))
  refine ⟨p, (Placeholder.ofBlob_eq complete).trans made, ?_⟩
  rw [Placeholder.length_ofLength made, recorded]

theorem ofBlob_eq (sealed : Seals blob s units) (notOne : units ≠ 1)
    (small : units ≤ Header.maxSourceLength.toNat) :
    ∃ p, Placeholder.ofBlob blob = .ok p ∧ p.length = units := by
  obtain ⟨p, made, length⟩ := sealed.placeholder small
  refine ⟨p, made, length.trans ?_⟩
  split <;> omega

theorem decode (sealed : Seals blob s units) (notOne : units ≠ 1)
    (small : units ≤ Header.maxSourceLength.toNat)
    (read : Payload.decode (Payload.encode s) = some s) {b : Build} (accepted : b.Accepts blob) :
    ∃ p, Placeholder.ofBlob blob = .ok p ∧ p.length = units ∧
      Blob.decode blob p.length b.fingerprint b.checkedOffsets = .ok s := by
  obtain ⟨p, placeholder, length⟩ := sealed.ofBlob_eq notOne small
  have payload : Payload.decode (blob.drop Header.size) = some s := by
    rw [sealed.payload]
    exact read
  exact ⟨p, placeholder, length, (Build.decode_eq_ok_iff placeholder).2 ⟨accepted, payload⟩⟩

theorem accepts_iff (sealed : Seals blob s units) (notOne : units ≠ 1)
    (small : units ≤ Header.maxSourceLength.toNat)
    (read : Payload.decode (Payload.encode s) = some s) (b : Build) :
    b.Accepts blob ↔
      ∀ o ∈ b.checkedOffsets, b.fingerprint[(o - 12) / 4]? = some (blob.word o) := by
  have recorded := sealed.toNat_lengthOf small
  have flagged : Header.flagOf (blob.word Header.fieldOffset) = true := by
    rw [flagOf_iff, sealed.field, toNat_sourceField]
    exact Nat.le_add_left _ _
  have length : Header.lengthOf (blob.word Header.fieldOffset) ≠ 1 := by
    intro one
    rw [one] at recorded
    exact notOne recorded.symm
  constructor
  · intro accepted
    exact accepted.fingerprint
  · intro agrees
    have checksum : blob.word 4 = Blob.checksum (blob.drop Header.size) := by
      rw [sealed.payload]
      exact sealed.checksum
    have payload : ∃ s, Payload.decode (blob.drop Header.size) = some s := by
      rw [sealed.payload]
      exact ⟨s, read⟩
    exact ⟨sealed.complete, sealed.magic, flagged, length, agrees, checksum, payload⟩

end Seals

end Blob

namespace Build

theorem compile_eq {source : String} {script : Script} (h : Script.parse source = .ok script)
    (b : Build) :
    b.compile source = .ok (Blob.encode script (Text.units16 source) b.fingerprint) := by
  rw [compile, h]
  rfl

theorem compile_eq_ok {b : Build} {source : String} {blob : Bytes}
    (h : b.compile source = .ok blob) :
    ∃ script, Script.parse source = .ok script ∧
      blob = Blob.encode script (Text.units16 source) b.fingerprint := by
  obtain ⟨script, parsed, made⟩ := bind_eq_ok.1 h
  cases made
  exact ⟨script, parsed, rfl⟩

end Build

end CodeCache
