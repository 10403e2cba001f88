import CodeCache.Header

/-! # Patches as overlays

Patching keeps the length of a blob and decides byte by byte: a byte that a range of the chosen
recipe covers comes from the reference blob if that is long enough, and every other byte stays. The
order of the ranges and their overlaps do not matter. The copies stay inside both blobs: with
bounds checked at each access, nothing fails. -/

namespace CodeCache

def Bytes.checkedSlice (bs : Bytes) (start stop : Nat) : Option Bytes :=
  if start ≤ stop ∧ stop ≤ bs.length then some (bs.slice start stop) else none

/-- Puts a piece in the place of `[start, stop)`, if the string has that range and the piece fills
it. -/
def Bytes.checkedOverwrite (bs : Bytes) (start stop : Nat) (piece : Bytes) : Option Bytes :=
  if (start ≤ stop ∧ stop ≤ bs.length) ∧ piece.length = stop - start then
    some (bs.take start ++ piece ++ bs.drop stop) else none

namespace Patch

def Range.Covers (r : Range) (i : Nat) : Prop := r.start.toNat ≤ i ∧ i < r.stop.toNat

instance (r : Range) (i : Nat) : Decidable (r.Covers i) :=
  inferInstanceAs (Decidable (r.start.toNat ≤ i ∧ i < r.stop.toNat))

def Recipe.Covers (r : Recipe) (i : Nat) : Prop := ∃ range ∈ r.ranges, range.Covers i

instance (r : Recipe) (i : Nat) : Decidable (r.Covers i) :=
  inferInstanceAs (Decidable (∃ range ∈ r.ranges, range.Covers i))

/-- A range of the recipe taken for the version covers the byte. -/
def Table.Covers (t : Table) (v : Version) (i : Nat) : Prop := ∃ r ∈ t.select v, r.Covers i

instance (t : Table) (v : Version) (i : Nat) : Decidable (t.Covers v i) :=
  inferInstanceAs (Decidable (∃ r ∈ t.select v, r.Covers i))

/-- The ranges of all recipes lie inside `[first, last)`. Empty ranges may stand anywhere. -/
def Table.Within (t : Table) (first last : Nat) : Prop :=
  ∀ recipe ∈ t.recipes, ∀ range ∈ recipe.ranges, ∀ i, range.Covers i → first ≤ i ∧ i < last

theorem getElem?_splice {blob reference : Bytes} {start stop : Nat} (hs : start < stop)
    (hb : stop ≤ blob.length) (hr : stop ≤ reference.length) (i : Nat) :
    (blob.take start ++ reference.slice start stop ++ blob.drop stop)[i]? =
      if start ≤ i ∧ i < stop then reference[i]? else blob[i]? := by
  have front : (blob.take start).length = start := by simp; omega
  have middle : (reference.slice start stop).length = stop - start := by simp [Bytes.slice]; omega
  rw [List.append_assoc, List.getElem?_append, List.getElem?_append, front, middle]
  by_cases low : i < start
  · simp [low, show ¬start ≤ i by omega]
  by_cases high : i < stop
  · have inside : i - start < stop - start := by omega
    have place : start + (i - start) = i := by omega
    simp [low, high, inside, place, show start ≤ i by omega, Bytes.slice]
  · have past : ¬i - start < stop - start := by omega
    have place : stop + (i - start - (stop - start)) = i := by omega
    simp [low, high, past, place]

theorem Range.getElem?_copy (r : Range) (blob reference : Bytes) (i : Nat) :
    (r.copy blob reference)[i]? =
      if r.Covers i ∧ i < blob.length ∧ i < reference.length then reference[i]? else blob[i]? := by
  by_cases h : r.Covers i ∧ i < blob.length ∧ i < reference.length
  · obtain ⟨⟨low, high⟩, inBlob, inReference⟩ := h
    have nonempty : r.start.toNat < min r.stop.toNat (min blob.length reference.length) := by omega
    rw [if_pos ⟨⟨low, high⟩, inBlob, inReference⟩]
    simp only [copy, if_pos nonempty]
    rw [getElem?_splice nonempty (by omega) (by omega), if_pos (by omega)]
  · have outside : ¬((r.start.toNat ≤ i ∧ i < r.stop.toNat) ∧ i < blob.length ∧
      i < reference.length) := h
    rw [if_neg h]
    simp only [copy]
    split
    · rw [getElem?_splice (by assumption) (by omega) (by omega), if_neg (by omega)]
    · rfl

theorem Range.length_copy (r : Range) (blob reference : Bytes) :
    (r.copy blob reference).length = blob.length := by
  simp only [copy]
  split
  · simp [Bytes.slice]
    omega
  · rfl

theorem Recipe.length_apply (r : Recipe) (blob reference : Bytes) :
    (r.apply blob reference).length = blob.length := by
  rw [apply]
  induction r.ranges generalizing blob with
  | nil => rfl
  | cons range ranges ih => rw [List.foldl_cons, ih, Range.length_copy]

/-- A byte that went through some ranges is changed again only by a later one that covers it, and
then to the same byte of the reference. -/
theorem getElem?_foldl_copy (ranges : List Range) (blob reference : Bytes) (i : Nat) :
    (ranges.foldl (fun blob range => range.copy blob reference) blob)[i]? =
      if (∃ range ∈ ranges, range.Covers i) ∧ i < blob.length ∧ i < reference.length then
        reference[i]? else blob[i]? := by
  induction ranges generalizing blob with
  | nil => simp
  | cons range ranges ih =>
    rw [List.foldl_cons, ih, Range.getElem?_copy, Range.length_copy]
    by_cases room : i < blob.length ∧ i < reference.length
    · by_cases later : ∃ other ∈ ranges, other.Covers i <;>
        by_cases now : range.Covers i <;> simp [later, now, room]
    · simp [room]

theorem Recipe.getElem?_apply (r : Recipe) (blob reference : Bytes) (i : Nat) :
    (r.apply blob reference)[i]? =
      if r.Covers i ∧ i < blob.length ∧ i < reference.length then reference[i]? else blob[i]? :=
  getElem?_foldl_copy r.ranges blob reference i

theorem Table.length_patch (t : Table) (v : Version) (blob reference : Bytes) :
    (t.patch v blob reference).2.length = blob.length := by
  simp only [patch]
  cases t.select v with
  | none => rfl
  | some r => exact r.length_apply blob reference

theorem Table.getElem?_patch (t : Table) (v : Version) (blob reference : Bytes) (i : Nat) :
    (t.patch v blob reference).2[i]? =
      if t.Covers v i ∧ i < blob.length ∧ i < reference.length then reference[i]?
      else blob[i]? := by
  cases taken : t.select v with
  | none =>
    have uncovered : ¬t.Covers v i := by simp [Covers, taken]
    simp [patch, taken, uncovered]
  | some r =>
    have covers : t.Covers v i ↔ r.Covers i := by simp [Covers, taken]
    simp [patch, taken, covers, Recipe.getElem?_apply]

theorem Table.Within.of_covers {t : Table} {first last i : Nat} {v : Version}
    (h : t.Within first last) (hi : t.Covers v i) : first ≤ i ∧ i < last := by
  obtain ⟨recipe, taken, range, mem, covers⟩ := hi
  exact h recipe (List.mem_of_find?_eq_some taken) range mem i covers

theorem Table.builtin_within : Table.builtin.Within 12 24 := by
  have every : ∀ recipe ∈ Table.builtin.recipes, ∀ range ∈ recipe.ranges,
      12 ≤ range.start.toNat ∧ range.stop.toNat ≤ 24 := by decide
  intro recipe known range mem i covered
  have bounds := every recipe known range mem
  exact ⟨Nat.le_trans bounds.1 covered.1, Nat.lt_of_lt_of_le covered.2 bounds.2⟩

def Range.checkedCopy (blob reference : Bytes) (r : Range) : Option Bytes :=
  let start := r.start.toNat
  let stop := min r.stop.toNat (min blob.length reference.length)
  if start < stop then (reference.checkedSlice start stop).bind (blob.checkedOverwrite start stop ·)
  else some blob

def Recipe.checkedApply (r : Recipe) (blob reference : Bytes) : Option Bytes :=
  r.ranges.foldlM (fun blob range => range.checkedCopy blob reference) blob

def Table.checkedPatch (t : Table) (v : Version) (blob reference : Bytes) :
    Option (Option Recipe × Bytes) :=
  match t.select v with
  | none => some (none, blob)
  | some r => (r.checkedApply blob reference).map (some r, ·)

theorem Range.checkedCopy_eq (r : Range) (blob reference : Bytes) :
    r.checkedCopy blob reference = some (r.copy blob reference) := by
  simp only [checkedCopy, copy]
  generalize clipped : min r.stop.toNat (min blob.length reference.length) = stop
  split
  · rename_i nonempty
    have ordered : r.start.toNat ≤ stop := Nat.le_of_lt nonempty
    have inBlob : stop ≤ blob.length := by omega
    have inReference : stop ≤ reference.length := by omega
    have fills : (reference.slice r.start.toNat stop).length = stop - r.start.toNat := by
      simp only [Bytes.slice, List.length_take, List.length_drop]
      omega
    rw [Bytes.checkedSlice, if_pos ⟨ordered, inReference⟩, Option.bind_some,
      Bytes.checkedOverwrite, if_pos ⟨⟨ordered, inBlob⟩, fills⟩]
  · rfl

theorem Recipe.checkedApply_eq (r : Recipe) (blob reference : Bytes) :
    r.checkedApply blob reference = some (r.apply blob reference) := by
  rw [checkedApply, apply]
  induction r.ranges generalizing blob with
  | nil => rfl
  | cons range ranges ih =>
    rw [List.foldlM_cons, Range.checkedCopy_eq, Option.bind_eq_bind, Option.bind_some, ih,
      List.foldl_cons]

theorem Table.checkedPatch_eq (t : Table) (v : Version) (blob reference : Bytes) :
    t.checkedPatch v blob reference = some (t.patch v blob reference) := by
  cases taken : t.select v with
  | none => simp [checkedPatch, patch, taken]
  | some r => simp [checkedPatch, patch, taken, Recipe.checkedApply_eq]

theorem Recipe.Covers.congr {r r' : Recipe} (same : ∀ range, range ∈ r.ranges ↔ range ∈ r'.ranges)
    (i : Nat) : r.Covers i ↔ r'.Covers i := by
  simp only [Covers, same]

/-- Only the bytes covered count. -/
theorem Recipe.apply_congr {r r' : Recipe} (h : ∀ i, r.Covers i ↔ r'.Covers i)
    (blob reference : Bytes) : r.apply blob reference = r'.apply blob reference := by
  apply List.ext_getElem?
  intro i
  rw [getElem?_apply, getElem?_apply]
  simp only [h i]

theorem Recipe.apply_apply (r : Recipe) (blob reference : Bytes) :
    r.apply (r.apply blob reference) reference = r.apply blob reference := by
  apply List.ext_getElem?
  intro i
  rw [getElem?_apply, length_apply]
  split
  · rename_i copied
    rw [getElem?_apply, if_pos copied]
  · rfl

theorem Table.patch_patch (t : Table) (v : Version) (blob reference : Bytes) :
    t.patch v (t.patch v blob reference).2 reference = t.patch v blob reference := by
  cases taken : t.select v with
  | none => simp [patch, taken]
  | some r => simp only [patch, taken, Recipe.apply_apply]

theorem Table.select_of_first {t : Table} {v : Version} {before after : List Recipe} {r : Recipe}
    (order : t.recipes = before ++ r :: after)
    (skipped : ∀ earlier ∈ before, earlier.applies v = false) (applies : r.applies v = true) :
    t.select v = some r := by
  have none_before : before.find? (·.applies v) = none := by
    rw [List.find?_eq_none]
    intro earlier mem
    simp [skipped earlier mem]
  have found : (r :: after).find? (·.applies v) = some r := by simp [applies]
  rw [select, order, List.find?_append, none_before, Option.none_or, found]

theorem Table.select_of_none {t : Table} {v : Version}
    (skipped : ∀ r ∈ t.recipes, r.applies v = false) : t.select v = none := by
  rw [select, List.find?_eq_none]
  intro r mem
  simp [skipped r mem]

theorem Table.patch_of_select {t : Table} {v : Version} {r : Recipe} (taken : t.select v = some r)
    (blob reference : Bytes) : t.patch v blob reference = (some r, r.apply blob reference) := by
  simp [patch, taken]

theorem Recipe.getElem?_apply_of_lt (r : Recipe) (blob reference : Bytes) {i : Nat}
    (room : i < blob.length) :
    (r.apply blob reference)[i]? =
      some (if h : r.Covers i ∧ i < reference.length then reference[i] else blob[i]) := by
  rw [getElem?_apply]
  by_cases h : r.Covers i ∧ i < reference.length
  · rw [if_pos ⟨h.1, room, h.2⟩, dif_pos h, List.getElem?_eq_getElem h.2]
  · have untouched : ¬(r.Covers i ∧ i < blob.length ∧ i < reference.length) :=
      fun copied => h ⟨copied.1, copied.2.2⟩
    rw [if_neg untouched, dif_neg h, List.getElem?_eq_getElem room]

/-- Patching never leaves either buffer and is decided byte by byte by the first recipe that
applies, of which only the set of its ranges counts. -/
theorem Table.patch_overlay (t : Table) (v : Version) (blob reference : Bytes) :
    t.checkedPatch v blob reference = some (t.patch v blob reference) ∧
    (t.patch v blob reference).2.length = blob.length ∧
    t.patch v (t.patch v blob reference).2 reference = t.patch v blob reference ∧
    ((∀ r ∈ t.recipes, r.applies v = false) → t.patch v blob reference = (none, blob)) ∧
    ∀ before r after, t.recipes = before ++ r :: after →
      (∀ earlier ∈ before, earlier.applies v = false) → r.applies v = true →
      (t.patch v blob reference).1 = some r ∧
      (∀ i (_ : i < blob.length), (t.patch v blob reference).2[i]? =
        some (if h : r.Covers i ∧ i < reference.length then reference[i] else blob[i])) ∧
      ∀ (t' : Table) (r' : Recipe), t'.select v = some r' →
        (∀ range, range ∈ r'.ranges ↔ range ∈ r.ranges) →
        (t'.patch v blob reference).2 = (t.patch v blob reference).2 := by
  refine ⟨t.checkedPatch_eq v blob reference, t.length_patch v blob reference,
    t.patch_patch v blob reference, ?_, ?_⟩
  · intro skipped
    simp [patch, select_of_none skipped]
  · intro before r after order skipped applies
    have patched := patch_of_select (select_of_first order skipped applies) blob reference
    refine ⟨by rw [patched], ?_, ?_⟩
    · intro i room
      rw [patched]
      exact r.getElem?_apply_of_lt blob reference room
    · intro t' r' taken same
      rw [patched, patch_of_select taken]
      exact Recipe.apply_congr (Recipe.Covers.congr same) blob reference

/-- Ranges that overlap, are inverted or empty, or run past both buffers. -/
theorem Table.patch_overlay_mixed :
    let r : Recipe := ⟨"mixed", [.any], [⟨2, 6⟩, ⟨4, 9⟩, ⟨7, 3⟩, ⟨10, 10⟩, ⟨11, 40⟩]⟩
    let t : Table := ⟨[⟨"nine", [.majorMinor 9 9], [⟨0, 4⟩]⟩, r]⟩
    let patched := t.patch ⟨10, 0, 0⟩ (List.replicate 14 0) (List.replicate 12 1)
    patched.1 = some r ∧ patched.2[8]? = some 1 ∧ patched.2[10]? = some 0 ∧
      patched.2[11]? = some 1 ∧ patched.2[12]? = some 0 := by
  intro r t patched
  obtain ⟨-, -, -, -, first⟩ :=
    Table.patch_overlay t ⟨10, 0, 0⟩ (List.replicate 14 0) (List.replicate 12 1)
  obtain ⟨taken, bytes, -⟩ := first [_] r [] rfl (by decide) (by decide)
  exact ⟨taken, bytes 8 (by decide), bytes 10 (by decide), bytes 11 (by decide),
    bytes 12 (by decide)⟩

end Patch

end CodeCache
