import CodeCache.Engine.Passes
import CodeCache.Loader

/-! # What packages export

Entries are determined by their keys and what is found under them. The setup of a package therefore
always comes to the whole value and the named entries, whatever the exports were before it. -/

namespace CodeCache

universe u

namespace Entries

variable {α : Type u} {es fs pairs : Entries α}

theorem eq_of_get? (nodup : (keys es).Nodup) (same : keys es = keys fs)
    (found : ∀ key ∈ keys es, get? es key = get? fs key) : es = fs := by
  induction es generalizing fs with
  | nil =>
    cases fs with
    | nil => rfl
    | cons f fs => cases same
  | cons e es ih =>
    cases fs with
    | nil => cases same
    | cons f fs =>
      simp only [keys, List.map_cons, List.cons.injEq, List.nodup_cons] at same nodup
      have value : e.2 = f.2 := by simpa [keys, get?, same.1] using found e.1
      have rest : es = fs := by
        apply ih nodup.2 same.2
        intro key hk
        have other : e.1 ≠ key := by
          rintro rfl
          exact nodup.1 hk
        simpa [get?, other, ← same.1] using found key (List.mem_cons_of_mem _ hk)
      rw [rest, Prod.ext same.1 value]

theorem contains_iff (key : String) : contains es key = true ↔ key ∈ keys es := by
  induction es with
  | nil => simp [contains, get?, keys]
  | cons e es ih =>
    by_cases here : e.1 = key
    · simp [contains, get?, keys, here]
    · simpa [contains, get?, keys, here, Ne.symm here] using ih

theorem nodup_add {names : List String} (nodup : names.Nodup) {name : String} (new : name ∉ names) :
    (names ++ [name]).Nodup := by
  rw [List.nodup_append]
  refine ⟨nodup, by simp, ?_⟩
  rintro known hk added ha rfl
  rw [List.mem_singleton.1 ha] at hk
  exact new hk

theorem eraseDups_concat (names : List String) (name : String) :
    (names ++ [name]).eraseDups =
      if name ∈ names then names.eraseDups else names.eraseDups ++ [name] := by
  rw [List.eraseDups_append]
  by_cases known : name ∈ names
  · simp [known, List.removeAll]
  · simp [known, List.removeAll, List.eraseDups_cons]

def insertAll (es pairs : Entries α) : Entries α := pairs.foldl (fun es e => insert es e.1 e.2) es

theorem insertAll_cons (es pairs : Entries α) (e : String × α) :
    insertAll es (e :: pairs) = insertAll (insert es e.1 e.2) pairs := rfl

/-- The order of the keys depends on keys only. -/
theorem keys_insertAll_congr {pairs others : Entries α} (names : keys pairs = keys others)
    (same : keys es = keys fs) : keys (insertAll es pairs) = keys (insertAll fs others) := by
  induction pairs generalizing es fs others with
  | nil =>
    cases others with
    | nil => exact same
    | cons o others => cases names
  | cons e pairs ih =>
    cases others with
    | nil => cases names
    | cons o others =>
      simp only [keys, List.map_cons, List.cons.injEq] at names
      have inserted : keys (insert es e.1 e.2) = keys (insert fs o.1 o.2) := by
        rw [keys_insert, keys_insert, same, names.1]
      rw [insertAll_cons, insertAll_cons]
      exact ih names.2 inserted

theorem nodup_insertAll (nodup : (keys es).Nodup) (pairs : Entries α) :
    (keys (insertAll es pairs)).Nodup := by
  induction pairs generalizing es with
  | nil => exact nodup
  | cons e pairs ih =>
    apply ih
    rw [keys_insert]
    by_cases known : e.1 ∈ keys es
    · rw [if_pos known]
      exact nodup
    · rw [if_neg known]
      exact nodup_add nodup known

theorem keys_insertAll (known : ∀ name ∈ keys pairs, name ∈ keys es) :
    keys (insertAll es pairs) = keys es := by
  induction pairs generalizing es with
  | nil => rfl
  | cons e pairs ih =>
    have kept : keys (insert es e.1 e.2) = keys es := by
      rw [keys_insert, if_pos (known _ List.mem_cons_self)]
    rw [insertAll_cons, ih, kept]
    intro name hn
    rw [kept]
    exact known name (List.mem_cons_of_mem _ hn)

theorem mem_keys_insertAll {key : String} :
    key ∈ keys (insertAll es pairs) ↔ key ∈ keys es ∨ key ∈ keys pairs := by
  induction pairs generalizing es with
  | nil => simp [insertAll, keys]
  | cons e pairs ih =>
    have inserted : key ∈ keys (insert es e.1 e.2) ↔ key ∈ keys es ∨ key = e.1 := by
      rw [keys_insert]
      by_cases known : e.1 ∈ keys es
      · rw [if_pos known]
        constructor
        · exact .inl
        · rintro (there | rfl)
          · exact there
          · exact known
      · rw [if_neg known]
        simp
    rw [insertAll_cons, ih, inserted, or_assoc]
    simp [keys]

theorem get?_insertAll_of_not_mem {key : String} (h : key ∉ keys pairs) (es : Entries α) :
    get? (insertAll es pairs) key = get? es key := by
  induction pairs generalizing es with
  | nil => rfl
  | cons e pairs ih =>
    simp only [keys, List.map_cons, List.mem_cons, not_or] at h
    rw [insertAll_cons, ih h.2, get?_insert, if_neg (Ne.symm h.1)]

theorem get?_insertAll_congr {key : String} (h : key ∈ keys pairs) (es fs : Entries α) :
    get? (insertAll es pairs) key = get? (insertAll fs pairs) key := by
  induction pairs generalizing es fs with
  | nil => cases h
  | cons e pairs ih =>
    by_cases later : key ∈ keys pairs
    · exact ih later _ _
    · rcases List.mem_cons.1 h with rfl | later'
      · rw [insertAll_cons, insertAll_cons, get?_insertAll_of_not_mem later,
          get?_insertAll_of_not_mem later, get?_insert, get?_insert, if_pos rfl, if_pos rfl]
      · exact absurd later' later

/-- Inserting over entries with the same keys in the same order replaces them all. -/
theorem insertAll_eq_ofList (same : keys es = keys (ofList pairs)) :
    insertAll es pairs = ofList pairs := by
  have known : ∀ name ∈ keys pairs, name ∈ keys es := by
    intro name hn
    rw [same]
    exact mem_keys_insertAll.2 (.inr hn)
  have order : keys (insertAll es pairs) = keys (ofList pairs) := (keys_insertAll known).trans same
  have empty : (keys ([] : Entries α)).Nodup := List.nodup_nil
  have nodup : (keys (ofList pairs)).Nodup := nodup_insertAll empty pairs
  apply eq_of_get? (order ▸ nodup) order
  intro key hk
  rw [order] at hk
  rcases mem_keys_insertAll.1 hk with none | inserted
  · cases none
  · exact get?_insertAll_congr inserted es []

theorem insert_of_not_mem {key : String} (h : key ∉ keys es) (value : α) :
    insert es key value = es ++ [(key, value)] := by
  induction es with
  | nil => rfl
  | cons e es ih =>
    simp only [keys, List.map_cons, List.mem_cons, not_or] at h
    rw [insert, if_neg (Ne.symm h.1), ih h.2]
    rfl

theorem insertAll_of_nodup (nodup : (keys (es ++ pairs)).Nodup) :
    insertAll es pairs = es ++ pairs := by
  induction pairs generalizing es with
  | nil => exact (List.append_nil es).symm
  | cons e pairs ih =>
    have shape : es ++ e :: pairs = es ++ [e] ++ pairs := by simp
    have new : e.1 ∉ keys es := by
      rw [keys, List.map_append, List.nodup_append] at nodup
      intro known
      exact nodup.2.2 _ known _ List.mem_cons_self rfl
    rw [insertAll_cons, insert_of_not_mem new, ih (shape ▸ nodup), ← shape]

end Entries

theorem Setup.setAll_eq {es pairs : Fields}
    (known : ∀ name ∈ Entries.keys pairs, name ∈ Entries.keys es) :
    Setup.setAll es pairs = .ok (Entries.insertAll es pairs) := by
  induction pairs generalizing es with
  | nil => rfl
  | cons e pairs ih =>
    have declared : e.1 ∈ Entries.keys es := known _ List.mem_cons_self
    rw [Setup.setAll, if_pos ((Entries.contains_iff e.1).2 declared), ih, Entries.insertAll_cons]
    intro name hn
    rw [Entries.keys_insert, if_pos declared]
    exact known name (List.mem_cons_of_mem _ hn)

namespace Package

/-- The whole value as the default export, and after it the named entries. -/
def exports (p : Package) : Fields := Entries.ofList (("default", p.whole) :: p.others)

/-- The names of a package are different, so that its exports keep their order. -/
theorem exports_eq (p : Package) (nodup : (Entries.keys p.named).Nodup) :
    p.exports = ("default", p.whole) :: p.others := by
  have kept : (Entries.keys p.others).Nodup := nodup.sublist (List.filter_sublist.map _)
  have new : "default" ∉ Entries.keys p.others := by
    simp [Entries.keys, others]
  have all : (Entries.keys ([] ++ ("default", p.whole) :: p.others)).Nodup :=
    List.nodup_cons.2 ⟨new, kept⟩
  exact Entries.insertAll_of_nodup all

theorem run_setup (p : Package) : Setup.run p.exportNames (some p.setup) = .ok p.exports := by
  have same : Entries.keys (Entries.ofList (p.exportNames.map (·, Value.null))) =
      Entries.keys p.exports := by
    refine Entries.keys_insertAll_congr ?_ rfl
    simp [Entries.keys, exportNames, Function.comp_def]
  have known : ∀ name ∈ Entries.keys p.setup.exports,
      name ∈ Entries.keys (Entries.ofList (p.exportNames.map (·, Value.null))) := by
    intro name hn
    rw [same]
    exact Entries.mem_keys_insertAll.2 (.inr hn)
  have declared := Setup.setAll_eq known
  have settled : Entries.insertAll (Entries.ofList (p.exportNames.map (·, Value.null)))
      p.setup.exports = p.exports := Entries.insertAll_eq_ofList same
  rw [settled] at declared
  simp only [Setup.run, declared]
  rfl

end Package

end CodeCache
