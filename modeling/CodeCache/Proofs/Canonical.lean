import CodeCache.Proofs.Payload

/-! # Canonical payloads

Reading a payload takes no other bytes than writing produces. A script is therefore read off the
front of exactly those byte strings that begin with its payload, and no payload is the beginning of
another one. Texts and lists of `2 ^ 64` parts or more are never read, since eight bytes cannot tell
their length. -/

namespace CodeCache.Payload

variable {α β : Type} {bs rest : Bytes}

/-- Whatever is read was taken off the front as it is written, and is sized. -/
def Exact (read : Reader α) (encode : α → Bytes) (sized : α → Prop) : Prop :=
  ∀ bs x rest, read bs = some (x, rest) → bs = encode x ++ rest ∧ sized x

section

variable {read : Reader α} {encode : α → Bytes} {sized : α → Prop}

/-- What comes first in a sequence was taken off the front. -/
theorem Exact.first (exact : Exact read encode sized) {next : α → Reader β} {y : β}
    (h : (read >>= next) bs = some (y, rest)) :
    ∃ x after, bs = encode x ++ after ∧ sized x ∧ next x after = some (y, rest) := by
  have both : (read bs).bind (fun p => next p.1 p.2) = some (y, rest) := h
  obtain ⟨⟨x, after⟩, front, back⟩ := Option.bind_eq_some_iff.1 both
  obtain ⟨bytes, here⟩ := exact _ _ _ front
  exact ⟨x, after, bytes, here, back⟩

/-- What comes last in a sequence was taken off the front. -/
theorem Exact.last (exact : Exact read encode sized) {f : α → β} {y : β}
    (h : (do return f (← read) : Reader β) bs = some (y, rest)) :
    ∃ x, bs = encode x ++ rest ∧ sized x ∧ f x = y := by
  obtain ⟨x, after, bytes, here, h⟩ := exact.first h
  cases h
  exact ⟨x, bytes, here, rfl⟩

end

theorem exact_readBytes (count : Nat) : Exact (readBytes count) id (·.length = count) := by
  intro bs front rest h
  rw [readBytes] at h
  by_cases enough : (bs.take count).length = count
  · rw [if_pos enough] at h
    cases h
    exact ⟨(List.take_append_drop count bs).symm, enough⟩
  · rw [if_neg enough] at h
    cases h

theorem exact_readNat (count : Nat) :
    Exact (readNat count) (Bytes.ofNat count) (· < Nat.pow 256 count) := by
  intro bs n rest h
  obtain ⟨front, rfl, rfl, rfl⟩ := (exact_readBytes count).last h
  exact ⟨by rw [Bytes.ofNat_toNat]; rfl, Bytes.toNat_lt front⟩

theorem exact_readTag : Exact readTag tag (· < Nat.pow 256 4) := exact_readNat 4

theorem exact_readSize : Exact readSize size (· < UInt64.size) := exact_readNat 8

theorem exact_readTruth : Exact readTruth truth fun _ => True := by
  intro bs b rest h
  obtain ⟨n, after, rfl, _, h⟩ := (exact_readNat 1).first h
  split at h
  · cases h
    exact ⟨rfl, trivial⟩
  · cases h
    exact ⟨rfl, trivial⟩
  · cases h

theorem exact_readText : Exact readText text SizedText := by
  intro bs s rest h
  obtain ⟨n, after, rfl, small, h⟩ := exact_readSize.first h
  obtain ⟨front, after, rfl, length, h⟩ := (exact_readBytes n).first h
  cases found : Text.Utf8.decode? front with
  | none =>
    rw [found] at h
    cases h
  | some s =>
    rw [found] at h
    cases h
    cases length
    cases Text.Utf8.eq_encode_of_decode? found
    exact ⟨by simp [text], small⟩

theorem exact_readMany {read : Reader α} {encode : α → Bytes} {sized : α → Prop}
    (exact : Exact read encode sized) (count : Nat) :
    Exact (readMany read count) (·.flatMap encode)
      fun xs => xs.length = count ∧ ∀ x ∈ xs, sized x := by
  induction count with
  | zero =>
    intro bs xs rest h
    cases h
    simp
  | succ count ih =>
    intro bs xs rest h
    obtain ⟨x, after, rfl, here, h⟩ := exact.first h
    obtain ⟨others, rfl, ⟨rfl, there⟩, rfl⟩ := ih.last h
    simpa using ⟨here, there⟩

theorem exact_readList {read : Reader α} {encode : α → Bytes} {sized : α → Prop}
    (exact : Exact read encode sized) : Exact (readList read) (list encode) (SizedList sized) := by
  intro bs xs rest h
  obtain ⟨n, after, rfl, small, h⟩ := exact_readSize.first h
  obtain ⟨rfl, rfl, items⟩ := exact_readMany exact n _ _ _ h
  exact ⟨by simp [list], small, items⟩

theorem exact_readProperty {read : Reader Expr} (exact : Exact read expr SizedExpr) :
    Exact (readProperty read) property fun p => SizedText p.1 ∧ SizedExpr p.2 := by
  intro bs p rest h
  obtain ⟨key, after, rfl, sizedKey, h⟩ := exact_readText.first h
  obtain ⟨value, rfl, sizedValue, rfl⟩ := exact.last h
  exact ⟨by simp [property], sizedKey, sizedValue⟩

/-- By induction on the bound on the depth, with a case for every alternative. -/
theorem exact_readExprWithin (depth : Nat) : Exact (readExprWithin depth) expr SizedExpr := by
  induction depth with
  | zero =>
    intro bs e rest h
    cases h
  | succ depth ih =>
    intro bs e rest h
    rw [readExprWithin] at h
    obtain ⟨n, after, rfl, _, h⟩ := exact_readTag.first h
    split at h
    · cases h
      exact ⟨rfl, .null⟩
    · obtain ⟨b, rfl, _, rfl⟩ := exact_readTruth.last h
      exact ⟨by simp [expr], .bool b⟩
    · obtain ⟨n, rfl, small, rfl⟩ := (exact_readNat 8).last h
      have back : (UInt64.ofNat n).toNat = n := UInt64.toNat_ofNat_of_lt' small
      exact ⟨by simp [expr, back], .int _⟩
    · obtain ⟨n, rfl, small, rfl⟩ := (exact_readNat 8).last h
      have back : (UInt64.ofNat n).toNat = n := UInt64.toNat_ofNat_of_lt' small
      exact ⟨by simp [expr, back], .float _⟩
    · obtain ⟨s, rfl, sized, rfl⟩ := exact_readText.last h
      exact ⟨by simp [expr], .str sized⟩
    · obtain ⟨es, rfl, ⟨count, items⟩, rfl⟩ := (exact_readList ih).last h
      exact ⟨by rw [expr_array, List.append_assoc], .array count items⟩
    · obtain ⟨ps, rfl, ⟨count, properties⟩, rfl⟩ :=
        (exact_readList (exact_readProperty ih)).last h
      refine ⟨by rw [expr_object, List.append_assoc], .object count ?_ ?_⟩
      · intro p hp
        exact (properties p hp).1
      · intro p hp
        exact (properties p hp).2
    · obtain ⟨name, rfl, sized, rfl⟩ := exact_readText.last h
      exact ⟨by simp [expr], .ident sized⟩
    · obtain ⟨target, middle, rfl, sizedTarget, h⟩ := ih.first h
      obtain ⟨key, rfl, sizedKey, rfl⟩ := exact_readText.last h
      exact ⟨by simp [expr], .member sizedTarget sizedKey⟩
    · cases h

theorem exact_readExpr : Exact readExpr expr SizedExpr := by
  intro bs
  exact exact_readExprWithin _ bs

theorem exact_readBinding : Exact readBinding binding SizedBinding := by
  intro bs b rest h
  obtain ⟨n, after, rfl, _, h⟩ := exact_readTag.first h
  split at h
  · obtain ⟨name, rfl, sized, rfl⟩ := exact_readText.last h
    exact ⟨by simp [binding], sized⟩
  · obtain ⟨imported, after, rfl, sizedImported, h⟩ := exact_readText.first h
    obtain ⟨name, rfl, sizedName, rfl⟩ := exact_readText.last h
    exact ⟨by simp [binding], sizedImported, sizedName⟩
  · obtain ⟨name, rfl, sized, rfl⟩ := exact_readText.last h
    exact ⟨by simp [binding], sized⟩
  · cases h

theorem exact_readImport : Exact readImport importDecl SizedImport := by
  intro bs i rest h
  obtain ⟨specifier, after, rfl, sizedSpecifier, h⟩ := exact_readText.first h
  obtain ⟨bindings, rfl, sizedBindings, rfl⟩ := (exact_readList exact_readBinding).last h
  exact ⟨by simp [importDecl], sizedSpecifier, sizedBindings⟩

theorem exact_readPair : Exact readPair pair SizedPair := by
  intro bs p rest h
  obtain ⟨first, after, rfl, sizedFirst, h⟩ := exact_readText.first h
  obtain ⟨second, rfl, sizedSecond, rfl⟩ := exact_readText.last h
  exact ⟨by simp [pair], sizedFirst, sizedSecond⟩

theorem exact_readStmt : Exact readStmt stmt SizedStmt := by
  intro bs st rest h
  obtain ⟨n, after, rfl, _, h⟩ := exact_readTag.first h
  split at h
  · obtain ⟨name, after, rfl, sizedName, h⟩ := exact_readText.first h
    obtain ⟨init, after, rfl, sizedInit, h⟩ := exact_readExpr.first h
    obtain ⟨exported, rfl, _, rfl⟩ := exact_readTruth.last h
    exact ⟨by simp [stmt], sizedName, sizedInit⟩
  · obtain ⟨e, rfl, sized, rfl⟩ := exact_readExpr.last h
    exact ⟨by simp [stmt], sized⟩
  · obtain ⟨names, rfl, sized, rfl⟩ := (exact_readList exact_readPair).last h
    exact ⟨by rw [stmt_exportList, List.append_assoc], sized⟩
  · obtain ⟨e, rfl, sized, rfl⟩ := exact_readExpr.last h
    exact ⟨by simp [stmt], sized⟩
  · obtain ⟨e, rfl, sized, rfl⟩ := exact_readExpr.last h
    exact ⟨by simp [stmt], sized⟩
  · cases h

theorem exact_readScript : Exact readScript encode Sized := by
  intro bs s rest h
  obtain ⟨imports, after, rfl, sizedImports, h⟩ := (exact_readList exact_readImport).first h
  obtain ⟨body, rfl, sizedBody, rfl⟩ := (exact_readList exact_readStmt).last h
  exact ⟨by simp [encode], sizedImports, sizedBody⟩

theorem decode_eq_some_iff {s : Script} : decode bs = some s ↔ Sized s ∧ encode s <+: bs := by
  constructor
  · intro h
    obtain ⟨⟨s, rest⟩, read, rfl⟩ := Option.map_eq_some_iff.1 h
    obtain ⟨rfl, sized⟩ := exact_readScript _ _ _ read
    exact ⟨sized, List.prefix_append _ _⟩
  · rintro ⟨sized, rest, rfl⟩
    exact decode_encode_append sized rest

/-- The format is canonical and prefix-exact: reading gives a script exactly where its payload
begins the bytes. So payloads are read back whatever follows them, what is read is written with the
same bytes, no payload begins another one, and a payload that is cut short is not read. -/
theorem decode_iff_prefix :
    (∀ (s : Script) (p : Bytes), decode p = some s ↔ Sized s ∧ encode s <+: p) ∧
      (∀ (s : Script) (p : Bytes), p.length < UInt64.size →
        (decode p = some s ↔ encode s <+: p)) ∧
      (∀ (s : Script) (t : Bytes), Sized s → decode (encode s ++ t) = some s) ∧
      (∀ (s : Script) (p : Bytes), decode p = some s → encode s <+: p) ∧
      (∀ s s' : Script, Sized s → Sized s' → encode s <+: encode s' → s = s') ∧
      ∀ (s : Script) (p : Bytes), Sized s → p <+: encode s → p ≠ encode s → decode p = none := by
  have written {s : Script} {p : Bytes} (h : decode p = some s) : Sized s ∧ encode s <+: p :=
    decode_eq_some_iff.1 h
  have apart {s s' : Script} (sized : Sized s) (sized' : Sized s')
      (front : encode s <+: encode s') : s = s' := by
    have read : decode (encode s') = some s := decode_eq_some_iff.2 ⟨sized, front⟩
    have own : decode (encode s') = some s' :=
      decode_eq_some_iff.2 ⟨sized', List.prefix_refl _⟩
    exact Option.some.inj (read.symm.trans own)
  refine ⟨fun s p => decode_eq_some_iff, ?_, ?_, fun s p h => (written h).2,
    fun s s' => apart, ?_⟩
  · intro s p fits
    refine ⟨fun h => (written h).2, fun front => decode_eq_some_iff.2 ⟨?_, front⟩⟩
    exact sized_of_length (Nat.lt_of_le_of_lt front.length_le fits)
  · intro s t sized
    exact decode_encode_append sized t
  · intro s p sized cut shorter
    cases read : decode p with
    | none => rfl
    | some s' =>
      obtain ⟨sized', front⟩ := written read
      cases apart sized' sized (front.trans cut)
      exact absurd (cut.eq_of_length_le front.length_le) shorter

def mixed : Script where
  imports := [⟨"a.jsc", [.defaultExport "a", .named "b" "c"]⟩]
  body := [
    .declare "x" (.array [.int (-1), .object [("k", .member (.ident "a") "b")]]) true,
    .exportList [("x", "y")]]

/-- The payload of the mixed script is read with a byte after it, and not without its last byte. -/
theorem decode_mixed :
    Sized mixed ∧ decode (encode mixed ++ [7]) = some mixed ∧
      decode (encode mixed).dropLast = none := by
  have sized : Sized mixed := sized_of_length (by decide +kernel)
  obtain ⟨_, _, followed, _, _, cut⟩ := decode_iff_prefix
  refine ⟨sized, followed mixed [7] sized, cut mixed _ sized (List.dropLast_prefix _) ?_⟩
  intro same
  have shorter := congrArg List.length same
  rw [List.length_dropLast] at shorter
  have pos : 0 < (encode mixed).length := by decide +kernel
  omega

end CodeCache.Payload
