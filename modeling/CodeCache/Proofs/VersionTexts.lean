import CodeCache.CommandLine.Run
import CodeCache.Flags
import CodeCache.Proofs.Refinement
import CodeCache.Proofs.Rendering

/-! # Which texts name a version

A grammar of version texts that does not say how they are read: white space around, a `v` that may
be left out, numbers with dots between them and anything after a dash or a plus sign. Reading
accepts the texts of the grammar and no others, and all that read versions report a refused text as
it was. A version is printed as a text that names it. -/

namespace CodeCache

namespace Number

inductive Denotes : List Char → Nat → Prop
  | digit {c : Char} : c.isDigit → Denotes [c] (c.toNat - '0'.toNat)
  | next {cs : List Char} {n : Nat} {c : Char} :
    Denotes cs n → c.isDigit → Denotes (cs ++ [c]) (10 * n + (c.toNat - '0'.toNat))

variable {cs : List Char} {n : Nat}

theorem readNat?_eq_some_iff :
    readNat? cs = some n ↔ (cs ≠ [] ∧ cs.all Char.isDigit) ∧ Nat.ofDigitChars 10 cs 0 = n := by
  rw [readNat?, Option.ite_none_right_eq_some, Option.some_inj]

theorem Denotes.read (h : Denotes cs n) : readNat? cs = some n := by
  rw [readNat?_eq_some_iff]
  induction h with
  | digit d => exact ⟨⟨List.cons_ne_nil _ _, by simpa using d⟩, by simp [Nat.ofDigitChars]⟩
  | @next cs n c _ d ih =>
    obtain ⟨⟨_, all⟩, value⟩ := ih
    refine ⟨⟨by simp, by rw [List.all_append, all, List.all_cons, d]; rfl⟩, ?_⟩
    rw [Nat.ofDigitChars_append, value, Nat.ofDigitChars_cons, Nat.ofDigitChars_nil]

theorem denotes_of_digits (nonempty : cs ≠ []) (all : ∀ c ∈ cs, c.isDigit) :
    Denotes cs (Nat.ofDigitChars 10 cs 0) := by
  induction cs using List.reverseRecOn with
  | nil => exact absurd rfl nonempty
  | append_singleton cs c ih =>
    have last : c.isDigit := all c (by simp)
    rw [Nat.ofDigitChars_append, Nat.ofDigitChars_cons, Nat.ofDigitChars_nil]
    by_cases single : cs = []
    · subst single
      simpa [Nat.ofDigitChars] using Denotes.digit last
    · exact .next (ih single fun d h => all d (by simp [h])) last

theorem readNat?_iff : readNat? cs = some n ↔ Denotes cs n := by
  refine ⟨fun h => ?_, Denotes.read⟩
  obtain ⟨⟨nonempty, all⟩, rfl⟩ := readNat?_eq_some_iff.1 h
  exact denotes_of_digits nonempty (by simpa using all)

theorem readUInt32?_iff {w : UInt32} : readUInt32? cs = some w ↔ Denotes cs w.toNat := by
  rw [← readNat?_iff, readUInt32?]
  cases readNat? cs with
  | none => simp
  | some n =>
    rw [Option.bind_some, Option.ite_none_right_eq_some, Option.some_inj, Option.some_inj]
    constructor
    · rintro ⟨small, rfl⟩
      exact (UInt32.toNat_ofNat_of_lt' small).symm
    · rintro rfl
      exact ⟨w.toNat_lt, UInt32.ofNat_toNat⟩

end Number

namespace Text

structure Trims (cs body : List Char) : Prop where
  around : ∃ before after, cs = before ++ (body ++ after) ∧
    (∀ c ∈ before, isBlank c) ∧ ∀ c ∈ after, isBlank c
  first : ∀ c, body.head? = some c → isBlank c = false
  last : ∀ c, body.getLast? = some c → isBlank c = false

theorem head?_dropWhile {p : Char → Bool} {cs : List Char} {c : Char}
    (h : (cs.dropWhile p).head? = some c) : p c = false := by
  have stop := List.head?_dropWhile_not p cs
  rwa [h] at stop

theorem trims_trim (cs : List Char) : Trims cs (trim cs) := by
  have front : cs.takeWhile isBlank ++ cs.dropWhile isBlank = cs := List.takeWhile_append_dropWhile
  have back : trim cs ++ ((cs.dropWhile isBlank).reverse.takeWhile isBlank).reverse =
      cs.dropWhile isBlank := by
    rw [trim, ← List.reverse_append, List.takeWhile_append_dropWhile, List.reverse_reverse]
  refine ⟨⟨_, _, (congrArg _ back).trans front |>.symm, fun c h => List.mem_takeWhile_imp h,
    fun c h => List.mem_takeWhile_imp (List.mem_reverse.1 h)⟩, fun c h => ?_, fun c h => ?_⟩
  · have starts : (cs.dropWhile isBlank).head? = some c := by
      rw [← back, List.head?_append, h]
      rfl
    exact head?_dropWhile starts
  · rw [trim, List.getLast?_reverse] at h
    exact head?_dropWhile h

theorem Trims.eq {cs body : List Char} (h : Trims cs body) : trim cs = body := by
  obtain ⟨⟨before, after, rfl, front, back⟩, first, last⟩ := h
  by_cases empty : body = []
  · -- Blanks alone have no character between them to stop at.
    subst empty
    have blank : ∀ c ∈ before ++ ([] ++ after), isBlank c := by
      intro c h
      exact (List.mem_append.1 h).elim (front c) (back c)
    rw [trim, List.dropWhile_eq_nil_iff.2 blank]
    rfl
  · have starts : ∀ c, (body ++ after).head? = some c → isBlank c = false := by
      rwa [List.head?_append_of_ne_nil _ empty]
    have ends : ∀ c, body.reverse.head? = some c → isBlank c = false := by
      rwa [List.head?_reverse]
    have blankBefore : before.all isBlank := List.all_eq_true.2 front
    have blankAfter : after.reverse.all isBlank := by
      rw [List.all_reverse]
      exact List.all_eq_true.2 back
    rw [trim, (Script.takeWhile_stops blankBefore starts).2, List.reverse_append,
      (Script.takeWhile_stops blankAfter ends).2, List.reverse_reverse]

theorem trims_iff {cs body : List Char} : Trims cs body ↔ trim cs = body :=
  ⟨Trims.eq, by rintro rfl; exact trims_trim cs⟩

end Text

namespace Version

inductive Unmarks : List Char → List Char → Prop
  | marked (rest : List Char) : Unmarks ('v' :: rest) rest
  | plain {body : List Char} : body.head? ≠ some 'v' → Unmarks body body

theorem unmarks_iff {body rest : List Char} :
    Unmarks body rest ↔ (if body.head? = some 'v' then body.tail else body) = rest := by
  constructor
  · rintro (_ | plain)
    · rfl
    · exact if_neg plain
  · rintro rfl
    split
    · rename_i marked
      obtain ⟨rest, rfl⟩ := List.head?_eq_some_iff.1 marked
      exact .marked rest
    · exact .plain ‹_›

def IsCut (c : Char) : Prop := c = '-' ∨ c = '+'

instance : DecidablePred IsCut := fun c => inferInstanceAs (Decidable (c = '-' ∨ c = '+'))

/-- The core of a version text ends at its first dash or plus sign. -/
def Cuts (rest core : List Char) : Prop :=
  ∃ suffix, rest = core ++ suffix ∧ (∀ c ∈ core, ¬ IsCut c) ∧
    ∀ c, suffix.head? = some c → IsCut c

theorem cuts_iff {rest core : List Char} :
    Cuts rest core ↔ (rest.takeWhile fun c => c ≠ '-' && c ≠ '+') = core := by
  have keeps (c : Char) : (decide (c ≠ '-') && decide (c ≠ '+')) = true ↔ ¬ IsCut c := by
    simp [IsCut]
  constructor
  · rintro ⟨suffix, rfl, inside, stop⟩
    exact (Script.takeWhile_stops (List.all_eq_true.2 fun c h => (keeps c).2 (inside c h))
      fun c h => Bool.eq_false_iff.2 fun kept => (keeps c).1 kept (stop c h)).1
  · rintro rfl
    refine ⟨_, List.takeWhile_append_dropWhile.symm, fun c h => ?_, fun c h => ?_⟩
    · have kept := List.all_eq_true.1 List.all_takeWhile c h
      exact (keeps c).1 kept
    · have cut := Text.head?_dropWhile h
      exact not_not.1 fun uncut => Bool.eq_false_iff.1 cut ((keeps c).2 uncut)

structure Splits (core : List Char) (parts : List (List Char)) : Prop where
  joined : core = ['.'].intercalate parts
  nonempty : parts ≠ []
  undotted : ∀ part ∈ parts, '.' ∉ part

theorem undotted_of_mem_splitOn {core part : List Char} (h : part ∈ core.splitOn '.') :
    '.' ∉ part := by
  induction core generalizing part with
  | nil =>
    rw [List.splitOn_nil, List.mem_singleton] at h
    rw [h]
    exact List.not_mem_nil
  | cons c core ih =>
    rw [List.splitOn_cons_eq_if_modifyHead] at h
    obtain ⟨first, more, split⟩ := List.exists_cons_of_ne_nil (List.splitOn_ne_nil '.' core)
    rw [split] at h ih
    split at h
    · cases h with
      | head => exact List.not_mem_nil
      | tail _ h => exact ih h
    · rename_i undotted
      rw [List.modifyHead_cons] at h
      cases h with
      | head =>
        intro dot
        cases dot with
        | head => exact undotted rfl
        | tail _ dot => exact ih (.head more) dot
      | tail _ h => exact ih (.tail first h)

theorem splits_iff {core : List Char} {parts : List (List Char)} :
    Splits core parts ↔ core.splitOn '.' = parts := by
  constructor
  · rintro ⟨rfl, nonempty, undotted⟩
    exact List.splitOn_intercalate '.' undotted nonempty
  · rintro rfl
    exact ⟨(List.intercalate_splitOn '.').symm, List.splitOn_ne_nil _ _,
      fun part => undotted_of_mem_splitOn⟩

/-- The first three components are numbers of a word each, zero if missing, and later ones are
ignored. -/
inductive Components : List (List Char) → Version → Prop
  | one {a : List Char} {major : UInt32} :
    Number.Denotes a major.toNat → Components [a] ⟨major, 0, 0⟩
  | two {a b : List Char} {major minor : UInt32} :
    Number.Denotes a major.toNat → Number.Denotes b minor.toNat →
      Components [a, b] ⟨major, minor, 0⟩
  | more {a b c : List Char} {major minor patch : UInt32} (ignored : List (List Char)) :
    Number.Denotes a major.toNat → Number.Denotes b minor.toNat → Number.Denotes c patch.toNat →
      Components (a :: b :: c :: ignored) ⟨major, minor, patch⟩

inductive Names (s : String) (v : Version) : Prop
  | of {body rest core : List Char} {parts : List (List Char)} :
    Text.Trims s.toList body → Unmarks body rest → Cuts rest core → Splits core parts →
      Components parts v → Names s v

theorem components_iff {parts : List (List Char)} (nonempty : parts ≠ []) {v : Version} :
    Components parts v ↔
      ∃ major minor patch, Number.readUInt32? (parts.headD []) = some major ∧
        component? parts[1]? = some minor ∧ component? parts[2]? = some patch ∧
        v = ⟨major, minor, patch⟩ := by
  constructor
  · rintro (ha | ⟨ha, hb⟩ | ⟨_, ha, hb, hc⟩)
    · exact ⟨_, 0, 0, Number.readUInt32?_iff.2 ha, rfl, rfl, rfl⟩
    · exact ⟨_, _, 0, Number.readUInt32?_iff.2 ha, Number.readUInt32?_iff.2 hb, rfl, rfl⟩
    · exact ⟨_, _, _, Number.readUInt32?_iff.2 ha, Number.readUInt32?_iff.2 hb,
        Number.readUInt32?_iff.2 hc, rfl⟩
  · rintro ⟨major, minor, patch, ha, hb, hc, rfl⟩
    match parts, nonempty with
    | [a], _ =>
      cases hb
      cases hc
      exact .one (Number.readUInt32?_iff.1 ha)
    | [a, b], _ =>
      cases hc
      exact .two (Number.readUInt32?_iff.1 ha) (Number.readUInt32?_iff.1 hb)
    | a :: b :: c :: ignored, _ =>
      exact .more ignored (Number.readUInt32?_iff.1 ha) (Number.readUInt32?_iff.1 hb)
        (Number.readUInt32?_iff.1 hc)

theorem parse?_eq_some_iff {s : String} {v : Version} :
    parse? s = some v ↔ Components ((core s).splitOn '.') v := by
  rw [components_iff (List.splitOn_ne_nil _ _)]
  simp only [parse?, bind, Option.bind_eq_some_iff, pure, Option.some_inj, eq_comm (a := v),
    exists_and_left]

theorem parse?_iff_names {s : String} {v : Version} : parse? s = some v ↔ Names s v := by
  rw [parse?_eq_some_iff]
  constructor
  · exact .of (Text.trims_iff.2 rfl) (unmarks_iff.2 rfl) (cuts_iff.2 rfl) (splits_iff.2 rfl)
  · rintro ⟨trims, unmarks, cuts, splits, components⟩
    rw [core, Text.trims_iff.1 trims, unmarks_iff.1 unmarks, cuts_iff.1 cuts, splits_iff.1 splits]
    exact components

theorem isBlank_of_isDigit {c : Char} (h : c.isDigit) : Text.isBlank c = false := by
  have digits : ∀ n ∈ List.range' 48 10, Text.inRanges Text.blankRanges n = false := by decide
  exact digits _ (Script.mem_digits h)

def parts (v : Version) : List (List Char) :=
  [v.major, v.minor, v.patch].map fun w => Nat.toDigits 10 w.toNat

theorem isDigit_of_mem_part {v : Version} {part : List Char} (h : part ∈ v.parts) {c : Char}
    (hc : c ∈ part) : c.isDigit := by
  obtain ⟨w, -, rfl⟩ := List.mem_map.1 h
  exact Nat.isDigit_of_mem_toDigits (by decide) (by decide) hc

theorem toList_text (v : Version) : v.text.toList = 'v' :: ['.'].intercalate v.parts := by
  simp only [text, parts, String.toList_append, Nat.toString_eq_repr, Nat.toList_repr,
    List.map_cons, List.map_nil, List.intercalate, List.intersperse_cons_cons,
    List.intersperse_singleton, List.flatten_cons, List.flatten_nil, List.append_nil,
    List.append_assoc]
  rfl

theorem mem_intercalate {c : Char} {parts : List (List Char)} (h : c ∈ ['.'].intercalate parts) :
    c = '.' ∨ ∃ part ∈ parts, c ∈ part := by
  induction parts with
  | nil => exact absurd h List.not_mem_nil
  | cons part rest ih =>
    cases rest with
    | nil =>
      rw [List.intercalate_singleton] at h
      exact .inr ⟨part, .head _, h⟩
    | cons next rest =>
      rw [List.intercalate_cons_cons, List.mem_append, List.mem_append, List.mem_singleton] at h
      rcases h with (h | h) | h
      · exact .inr ⟨part, .head _, h⟩
      · exact .inl h
      · exact (ih h).imp_right fun ⟨found, among, inside⟩ => ⟨found, .tail _ among, inside⟩

theorem names_text (v : Version) : Names v.text v := by
  have plain {c : Char} (h : c ∈ ['.'].intercalate v.parts) : c = '.' ∨ c.isDigit :=
    (mem_intercalate h).imp_right fun ⟨_, among, inside⟩ => isDigit_of_mem_part among inside
  have solid {c : Char} (h : c ∈ 'v' :: ['.'].intercalate v.parts) : Text.isBlank c = false := by
    rcases List.mem_cons.1 h with rfl | h
    · decide
    · rcases plain h with rfl | digit
      · decide
      · exact isBlank_of_isDigit digit
  have trims : Text.Trims v.text.toList ('v' :: ['.'].intercalate v.parts) :=
    ⟨⟨[], [], by rw [toList_text, List.append_nil, List.nil_append], by simp, by simp⟩,
      fun c h => solid (List.mem_of_head? h), fun c h => solid (List.mem_of_getLast? h)⟩
  have cuts : Cuts (['.'].intercalate v.parts) (['.'].intercalate v.parts) := by
    refine ⟨[], (List.append_nil _).symm, fun c h cut => ?_, by simp⟩
    rcases plain h with rfl | digit
    · exact absurd cut (by decide)
    · rcases cut with rfl | rfl <;> exact absurd digit (by decide)
  have splits : Splits (['.'].intercalate v.parts) v.parts :=
    ⟨rfl, List.cons_ne_nil _ _, fun part h dot => absurd (isDigit_of_mem_part h dot) (by decide)⟩
  have denotes (w : UInt32) : Number.Denotes (Nat.toDigits 10 w.toNat) w.toNat :=
    Number.readUInt32?_iff.1 (Number.readUInt32?_toDigits w)
  exact .of trims (.marked _) cuts splits (.more [] (denotes _) (denotes _) (denotes _))

/-- A text is read as a version exactly if it names that version. A text that names none is
reported as it was, by commands, by the flags of a process and by loaders, which change nothing.
A version is printed as a text that is read as it, so printing what was read and reading it again
changes nothing. -/
theorem reading_exact (s : String) :
    (∀ v, parse? s = some v ↔ Names s v) ∧
    ((∀ v, ¬ Names s v) →
      (∀ (m : Type → Type) [Monad m], CommandLine.version (m := m) s = throw (.badVersion s)) ∧
      (∀ c, Flags.setOnce none s c = ⟨.error (.version s), [], none⟩) ∧
      ∀ (l : Loader) (blob : Bytes) (t : State), l.build.version = s →
        (l.patch blob).run t = (.error (.version s), t)) ∧
    (∀ v : Version, parse? v.text = some v) ∧
    (parse? s).bind (fun v => parse? v.text) = parse? s := by
  have again (v : Version) : parse? v.text = some v := parse?_iff_names.2 (names_text v)
  refine ⟨fun v => parse?_iff_names, fun nameless => ?_, again, ?_⟩
  · have refused : parse? s = none :=
      Option.eq_none_iff_forall_ne_some.2 fun v h => nameless v (parse?_iff_names.1 h)
    refine ⟨fun m _ => ?_, fun c => ?_, ?_⟩
    · rw [CommandLine.version, refused]
    · rw [Flags.setOnce, refused]
    · rintro l blob t rfl
      exact Loader.run_patch_of_version refused t
  · simp only [again, Option.bind_fun_some]

/-- Blanks, zeros in front, a suffix and a fourth component do not matter, but letters do. -/
theorem reading_exact_samples :
    Names "\tv021.4.0.x-nightly.2 " ⟨21, 4, 0⟩ ∧
    Flags.setOnce none "12.beta" {} = ⟨.error (.version "12.beta"), [], none⟩ := by
  have understood : parse? "\tv021.4.0.x-nightly.2 " = some ⟨21, 4, 0⟩ := by decide
  have refused : parse? "12.beta" = none := by decide
  have nameless (v : Version) : ¬ Names "12.beta" v := by
    rw [← (reading_exact _).1, refused]
    exact nofun
  exact ⟨((reading_exact _).1 _).1 understood, ((reading_exact _).2.1 nameless).2.1 _⟩

end Version

end CodeCache
