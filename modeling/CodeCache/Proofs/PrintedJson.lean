import CodeCache.Json
import CodeCache.Proofs.Rendering
import Mathlib.Data.List.Forall2

/-! # Printed JSON is read back

A value without doubles, printed with every entry and item on a line of its own, is read as the
document with the same parts, whatever its strings and keys hold and however deep it nests. Each
production is read back on its own: a character of a string, a number, and the parts between the
two marks of a list or a table. What is read stops at the comma or the line break after it. -/

namespace CodeCache

namespace Value

mutual
def toDocument : Value → Document
  | .null => .null
  | .bool b => .bool b
  | .int i => .int i
  | .float _ => .real true
  | .str s => .text (some s)
  | .array items => .list (itemDocuments items)
  | .object entries => .table (entryDocuments entries)
def itemDocuments : List Value → List Document
  | [] => []
  | v :: vs => toDocument v :: itemDocuments vs
def entryDocuments : List (String × Value) → List (Option String × Document)
  | [] => []
  | (k, v) :: es => (some k, toDocument v) :: entryDocuments es
end

theorem itemDocuments_eq (items : List Value) : itemDocuments items = items.map toDocument := by
  induction items with
  | nil => rfl
  | cons v vs ih => rw [itemDocuments, ih, List.map_cons]

theorem entryDocuments_eq (entries : List (String × Value)) :
    entryDocuments entries = entries.map fun e => (some e.1, toDocument e.2) := by
  induction entries with
  | nil => rfl
  | cons e es ih => rw [entryDocuments, ih, List.map_cons]

inductive Exact : Value → Prop
  | null : Exact .null
  | bool (b : Bool) : Exact (.bool b)
  | int {i : Int} : -0x8000000000000000 ≤ i → i < 0x10000000000000000 → Exact (.int i)
  | str (s : String) : Exact (.str s)
  | array {items : List Value} : (∀ v ∈ items, Exact v) → Exact (.array items)
  | object {entries : List (String × Value)} : (∀ e ∈ entries, Exact e.2) → Exact (.object entries)

end Value

namespace Json

def Piece.Gives (p : Piece) (c : Char) : Prop :=
  ∀ rest, assemble? (p :: rest) = (assemble? rest).map (c :: ·)

theorem gives_char (c : Char) : (Piece.char c).Gives c := by
  intro rest
  rw [assemble?]

theorem gives_unit {n : Nat} (h : n < 0xD800) : (Piece.unit n).Gives (Char.ofNat n) := by
  have high : isHighSurrogate n = false := by
    rw [isHighSurrogate, decide_eq_false (Nat.not_le.2 h), Bool.false_and]
  have low : isLowSurrogate n = false := by
    rw [isLowSurrogate, decide_eq_false (by omega), Bool.false_and]
  intro rest
  match rest with
  | [] | .char _ :: _ | .unit _ :: _ => simp [assemble?, high, low]

theorem readRadix?_hex2 : ∀ n < 0x20, Number.readRadix? 16 (['0', '0'] ++ hex2 n) = some n := by
  decide

theorem escapeChar_cases (c : Char) :
    (∃ e, e ≠ 'u' ∧ unescape? e = some c ∧ escapeChar c = ['\\', e]) ∨
    (c.toNat < 0x20 ∧ escapeChar c = ['\\', 'u', '0', '0'] ++ hex2 c.toNat) ∨
    (c ≠ '"' ∧ c ≠ '\\' ∧ ¬c.toNat < 0x20 ∧ escapeChar c = [c]) := by
  rw [escapeChar]
  repeat' split
  iterate 7 exact .inl ⟨_, by decide, by rw [‹c = _›]; rfl, rfl⟩
  · exact .inr (.inl ⟨‹_›, rfl⟩)
  · exact .inr (.inr ⟨‹_›, ‹_›, ‹_›, rfl⟩)

theorem stringPieces_escapeChar (c : Char) : ∃ p : Piece, p.Gives c ∧ ∀ rest,
    stringPieces (escapeChar c ++ rest) = (stringPieces rest).map fun r => (p :: r.1, r.2) := by
  obtain ⟨e, noUnit, meaning, written⟩ | ⟨low, written⟩ | ⟨quote, backslash, high, written⟩ :=
    escapeChar_cases c
  · refine ⟨.char c, gives_char c, fun rest => ?_⟩
    rw [written, List.cons_append, List.cons_append, List.nil_append, stringPieces, meaning]
    · cases stringPieces rest <;> rfl
    · rintro _ _ _ _ _ rfl
      exact absurd rfl noUnit
  · refine ⟨.unit c.toNat, ?_, fun rest => ?_⟩
    · have given := gives_unit (Nat.lt_trans low (by decide : 0x20 < 0xD800))
      rwa [Char.ofNat_toNat] at given
    · have value := readRadix?_hex2 c.toNat low
      rw [written]
      simp only [hex2, List.cons_append, List.nil_append] at value ⊢
      rw [stringPieces, value]
      cases stringPieces rest <;> rfl
  · refine ⟨.char c, gives_char c, fun rest => ?_⟩
    rw [written, List.singleton_append, stringPieces, if_neg (not_or.2 ⟨high, backslash⟩)]
    · cases stringPieces rest <;> rfl
    all_goals simp_all

theorem stringPieces_flatMap (cs rest : List Char) : ∃ pieces, assemble? pieces = some cs ∧
    stringPieces (cs.flatMap escapeChar ++ '"' :: rest) = some (pieces, rest) := by
  induction cs with
  | nil => exact ⟨[], rfl, rfl⟩
  | cons c cs ih =>
    obtain ⟨pieces, text, read⟩ := ih
    obtain ⟨p, gives, first⟩ := stringPieces_escapeChar c
    refine ⟨p :: pieces, ?_, ?_⟩
    · rw [gives, text]
      rfl
    · rw [List.flatMap_cons, List.append_assoc, first, read]
      rfl

theorem stringBody_string (s : String) (rest : List Char) :
    stringBody ((string s).tail ++ rest) = some (some s, rest) := by
  obtain ⟨pieces, text, read⟩ := stringPieces_flatMap s.toList rest
  have shape : (string s).tail ++ rest = s.toList.flatMap escapeChar ++ '"' :: rest := by
    rw [string, List.cons_append, List.tail_cons, List.append_assoc, List.singleton_append]
  rw [stringBody, shape, read]
  show some ((assemble? pieces).map String.ofList, rest) = _
  rw [text, Option.map_some, String.ofList_toList]

/-- What stands after a printed value. -/
def Stops (rest : List Char) : Prop := ∀ c, rest.head? = some c → c = ',' ∨ c = '\n'

theorem stops_nil : Stops [] := nofun

theorem stops_cons {c : Char} (h : c = ',' ∨ c = '\n') (rest : List Char) : Stops (c :: rest) := by
  rintro _ ⟨⟩
  exact h

theorem head?_toDigits {n : Nat} (positive : 0 < n) : (Nat.toDigits 10 n).head? ≠ some '0' := by
  induction n using Nat.strongRecOn with
  | ind n ih =>
    by_cases small : n < 10
    · rw [Nat.toDigits_of_lt_base small, List.head?_cons]
      have digits : ∀ d < 10, 0 < d → some (Nat.digitChar d) ≠ some '0' := by decide
      exact digits n small positive
    · have large : 10 ≤ n := Nat.not_lt.1 small
      rw [Nat.toDigits_of_base_le (by decide) large,
        List.head?_append_of_ne_nil _ Nat.toDigits_ne_nil]
      exact ih (n / 10) (by omega) (by omega)

variable {rest : List Char} (stop : Stops rest)
include stop

theorem digits?_toDigits (n : Nat) :
    digits? (Nat.toDigits 10 n ++ rest) = some (Nat.toDigits 10 n, rest) := by
  have digits : (Nat.toDigits 10 n).all Char.isDigit :=
    List.all_eq_true.2 fun _ h => Script.isDigit_of_mem_digits h
  have noDigit : ∀ c, rest.head? = some c → c.isDigit = false := by
    intro c h
    rcases stop c h with rfl | rfl <;> decide
  obtain ⟨taken, left⟩ := Script.takeWhile_stops digits noDigit
  simp only [digits?, taken, left, if_neg (Nat.toDigits_ne_nil : Nat.toDigits 10 n ≠ [])]

theorem whole?_toDigits (n : Nat) :
    whole? (Nat.toDigits 10 n ++ rest) = some (Nat.toDigits 10 n, rest) := by
  rcases Nat.eq_zero_or_pos n with rfl | positive
  · rfl
  · rw [whole?]
    · exact digits?_toDigits stop n
    · intro others same
      apply head?_toDigits positive
      rw [← List.head?_append_of_ne_nil _ Nat.toDigits_ne_nil, same, List.head?_cons]

theorem fraction?_of_stops : fraction? rest = some (none, rest) := by
  cases rest with
  | nil => rfl
  | cons c rest => rcases stop c rfl with rfl | rfl <;> rfl

theorem exponent?_of_stops : exponent? rest = some (none, rest) := by
  cases rest with
  | nil => rfl
  | cons c rest => rcases stop c rfl with rfl | rfl <;> rfl

theorem number?_natural {n : Nat} (small : n < 0x10000000000000000) :
    number? (Nat.toDigits 10 n ++ rest) = some (.int n, rest) := by
  have unsigned : ¬(Nat.toDigits 10 n ++ rest).head? = some '-' := by
    rw [List.head?_append_of_ne_nil _ Nat.toDigits_ne_nil]
    intro sign
    exact absurd (Script.isDigit_of_mem_digits (List.mem_of_head? sign)) (by decide)
  have value : Nat.ofDigitChars 10 (Nat.toDigits 10 n) 0 = n :=
    Nat.ofDigitChars_toDigits (by decide) (by decide)
  have fits : n < UInt64.size := small
  simp only [number?, unsigned, if_false, decide_false, whole?_toDigits stop,
    fraction?_of_stops stop, exponent?_of_stops stop, bind, Option.bind_some, pure]
  simp [numberOf, integer?, value, fits]

theorem number?_negative {n : Nat} (positive : 0 < n) (small : n ≤ 0x8000000000000000) :
    number? ('-' :: Nat.toDigits 10 n ++ rest) = some (.int (-n), rest) := by
  have value : Nat.ofDigitChars 10 (Nat.toDigits 10 n) 0 = n :=
    Nat.ofDigitChars_toDigits (by decide) (by decide)
  simp only [number?, List.cons_append, List.head?_cons, List.tail_cons, if_true, decide_true,
    whole?_toDigits stop, fraction?_of_stops stop, exponent?_of_stops stop, bind,
    Option.bind_some, pure]
  simp [numberOf, integer?, value, small, positive]

theorem number?_integer {i : Int} (low : -0x8000000000000000 ≤ i) (high : i < 0x10000000000000000) :
    number? (integer i ++ rest) = some (.int i, rest) := by
  rw [integer]
  split
  · rw [number?_negative stop (by omega) (by omega)]
    congr
    omega
  · rw [number?_natural stop (by omega)]
    congr
    omega

omit stop

theorem skipSpace_newline (depth : Nat) (cs : List Char) :
    skipSpace (newline depth ++ cs) = skipSpace cs := by
  apply List.dropWhile_append_of_pos
  intro c h
  rcases List.mem_cons.1 h with rfl | h
  · rfl
  · rw [List.eq_of_mem_replicate h]
    rfl

theorem stops_newline (depth : Nat) (cs : List Char) : Stops (newline depth ++ cs) :=
  stops_cons (.inr rfl) _

def Solid (cs : List Char) : Prop :=
  ∃ c tail, cs = c :: tail ∧ isSpace c = false ∧ c ≠ ']' ∧ c ≠ '\x7d'

theorem Solid.append {cs : List Char} (h : Solid cs) (rest : List Char) : Solid (cs ++ rest) := by
  obtain ⟨c, tail, rfl, start⟩ := h
  exact ⟨c, tail ++ rest, rfl, start⟩

theorem Solid.skipSpace {cs : List Char} (h : Solid cs) : skipSpace cs = cs := by
  obtain ⟨c, tail, rfl, solid, _⟩ := h
  rw [Json.skipSpace, List.dropWhile_cons, solid]
  rfl

abbrev Reader (α : Type) := Nat → List Char → Option (α × List Char)

/-- A text that is read as a part wherever one can stand. -/
structure Spells {α : Type} (read : Reader α) (cs : List Char) (a : α) : Prop where
  starts : Solid cs
  reads : ∀ {depth rest}, cs.length ≤ depth → Stops rest → read depth (cs ++ rest) = some (a, rest)

theorem spells_atom {c : Char} {tail : List Char} {d : Document}
    (start : isSpace c = false ∧ c ∉ ['[', ']', '\x7b', '\x7d'])
    (read : ∀ {rest}, Stops rest → atom? (c :: tail ++ rest) = some (d, rest)) :
    Spells valueWithin (c :: tail) d := by
  obtain ⟨solid, plain⟩ := start
  simp only [List.mem_cons, List.not_mem_nil, or_false, not_or] at plain
  obtain ⟨noList, noListEnd, noTable, noTableEnd⟩ := plain
  refine ⟨⟨c, tail, rfl, solid, noListEnd, noTableEnd⟩, fun {depth rest} enough stop => ?_⟩
  obtain ⟨depth, rfl⟩ := Nat.exists_eq_add_of_le' (Nat.one_le_of_lt enough)
  rw [valueWithin, List.cons_append, List.head?_cons, if_neg (mt Option.some.inj noList),
    if_neg (mt Option.some.inj noTable)]
  exact read stop

theorem spells_null : Spells valueWithin "null".toList .null :=
  spells_atom (by decide) fun _ => rfl

theorem spells_bool (b : Bool) : Spells valueWithin (atom (.bool b)) (.bool b) := by
  cases b <;> exact spells_atom (by decide) fun _ => rfl

theorem spells_string (s : String) : Spells valueWithin (string s) (.text (some s)) := by
  refine spells_atom (by decide) fun {rest} _ => ?_
  show (stringBody ((string s).tail ++ rest)).map _ = _
  rw [stringBody_string]
  rfl

theorem atom?_number {c : Char} (h : c = '-' ∨ c.isDigit) (cs : List Char) :
    (isSpace c = false ∧ c ∉ ['[', ']', '\x7b', '\x7d']) ∧ atom? (c :: cs) = number? (c :: cs) := by
  have marks : [' ', '\n', '\t', '\r', '[', ']', '\x7b', '\x7d', '"', 'n', 't', 'f'].all
      fun m => ¬(m = '-' ∨ m.isDigit) := by decide
  have other := mt (List.all_eq_true.1 marks c) fun unmarked => of_decide_eq_true unmarked h
  simp only [List.mem_cons, List.not_mem_nil, or_false, not_or] at other
  refine ⟨by simp [isSpace, other], ?_⟩
  rw [atom?, List.head?_cons]
  split <;> simp_all

theorem integer_starts (i : Int) : ∃ c tail, integer i = c :: tail ∧ (c = '-' ∨ c.isDigit) := by
  rw [integer]
  split
  · exact ⟨'-', _, rfl, .inl rfl⟩
  · obtain ⟨c, tail, shape⟩ := List.exists_cons_of_ne_nil
      (Nat.toDigits_ne_nil : Nat.toDigits 10 i.natAbs ≠ [])
    have first : c ∈ Nat.toDigits 10 i.natAbs := by
      rw [shape]
      exact List.mem_cons_self
    exact ⟨c, tail, shape, .inr (Script.isDigit_of_mem_digits first)⟩

theorem spells_integer {i : Int} (low : -0x8000000000000000 ≤ i) (high : i < 0x10000000000000000) :
    Spells valueWithin (integer i) (.int i) := by
  obtain ⟨c, tail, shape, start⟩ := integer_starts i
  rw [shape]
  refine spells_atom (atom?_number start tail).1 fun {rest} stop => ?_
  rw [List.cons_append, (atom?_number start _).2, ← List.cons_append, ← shape]
  exact number?_integer stop low high

def rowStep {α : Type} (close : Char) (part : List Char → Option (α × List Char))
    (more : List Char → Option (List α × List Char)) (cs : List Char) :
    Option (List α × List Char) := do
  let (a, rest) ← part cs
  match skipSpace rest with
  | ',' :: rest =>
    let (as, rest) ← more (skipSpace rest)
    return (a :: as, rest)
  | c :: rest => if c = close then some ([a], rest) else none
  | [] => none

structure Encloses {α : Type} (opening close : Char) (part : Reader α) (rows : Reader (List α))
    (wrap : List α → Document) : Prop where
  opens : isSpace opening = false ∧ opening ≠ ']' ∧ opening ≠ '\x7d'
  closes : close = ']' ∨ close = '\x7d'
  empty : ∀ depth rest, valueWithin (depth + 1) (opening :: close :: rest) = some (wrap [], rest)
  enter : ∀ depth cs, (skipSpace cs).head? ≠ some close →
    valueWithin (depth + 1) (opening :: cs) =
      (rows depth (skipSpace cs)).map fun r => (wrap r.1, r.2)
  step : ∀ depth cs, rows (depth + 1) cs = rowStep close (part depth) (rows depth) cs

theorem encloses_items : Encloses '[' ']' valueWithin itemsWithin .list where
  opens := by decide
  closes := .inl rfl
  empty _ _ := rfl
  enter depth cs other := by
    rw [valueWithin, List.head?_cons, if_pos rfl, List.tail_cons]
    exact if_neg other
  step depth cs := by
    rw [itemsWithin, rowStep]
    cases valueWithin depth cs with
    | none => rfl
    | some r =>
      simp only [bind, Option.bind_some]
      split
      · rename_i same
        rw [same]
        rfl
      · rename_i same
        rw [same]
        rfl
      · split <;> simp_all

def entryWithin : Reader (Option String × Document) := fun depth cs => do
  let (key, rest) ← key? cs
  let (d, rest) ← valueWithin depth rest
  return ((key, d), rest)

theorem encloses_entries : Encloses '\x7b' '\x7d' entryWithin entriesWithin .table where
  opens := by decide
  closes := .inr rfl
  empty _ _ := rfl
  enter depth cs other := by
    rw [valueWithin, List.head?_cons, if_neg (by decide), if_pos rfl, List.tail_cons]
    exact if_neg other
  step depth cs := by
    rw [entriesWithin, rowStep, entryWithin]
    cases key? cs with
    | none => rfl
    | some k =>
      simp only [bind, Option.bind_some]
      cases valueWithin depth k.2 with
      | none => rfl
      | some r =>
        simp only [Option.bind_some, pure]
        split
        · rename_i same
          rw [same]
          rfl
        · rename_i same
          rw [same]
          rfl
        · split <;> simp_all

def enclosed (opening close : Char) (depth : Nat) : List (List Char) → List Char
  | [] => [opening, close]
  | x :: xs => opening :: (newline (depth + 1) ++
    (joined (',' :: newline (depth + 1)) (x :: xs) ++ (newline depth ++ [close])))

theorem joined_cons_cons (separator x y : List Char) (xs : List (List Char)) :
    joined separator (x :: y :: xs) = x ++ (separator ++ joined separator (y :: xs)) := by
  rw [joined, List.append_assoc]
  exact List.cons_ne_nil _ _

section

variable {α : Type} {opening close : Char} {part : Reader α} {rows : Reader (List α)}
  {wrap : List α → Document} (encloses : Encloses opening close part rows wrap)

theorem Spells.solid_joined {x : List Char} {a : α} (h : Spells part x a) (separator : List Char)
    (xs : List (List Char)) : Solid (joined separator (x :: xs)) := by
  cases xs with
  | nil => exact h.starts
  | cons y ys =>
    rw [joined_cons_cons]
    exact h.starts.append _

include encloses

/-- Parts on lines of their own are read up to the closing mark. -/
theorem rows_joined {n m : Nat} {texts : List (List Char)} {as : List α}
    (spelled : List.Forall₂ (Spells part) texts as) (nonempty : texts ≠ []) {depth : Nat}
    (enough : (joined (',' :: newline n) texts).length < depth) (rest : List Char) :
    rows depth (joined (',' :: newline n) texts ++ (newline m ++ close :: rest)) =
      some (as, rest) := by
  -- A part takes one level and at least one character, so that the length of the text suffices.
  induction spelled generalizing depth with
  | nil => exact absurd rfl nonempty
  | @cons x a texts as first others ih =>
    obtain ⟨depth, rfl⟩ := Nat.exists_eq_add_of_le' (Nat.one_le_of_lt enough)
    rw [encloses.step, rowStep]
    cases others with
    | nil =>
      have read : part depth (x ++ (newline m ++ close :: rest)) =
          some (a, newline m ++ close :: rest) :=
        first.reads (Nat.le_of_lt_succ enough) (stops_newline m _)
      rw [joined, read]
      show (match skipSpace (newline m ++ close :: rest) with
        | ',' :: rest => _
        | c :: rest => _
        | [] => _) = _
      rw [skipSpace_newline]
      rcases encloses.closes with rfl | rfl <;> rfl
    | @cons y b texts bs second others =>
      rw [joined_cons_cons] at enough ⊢
      rw [List.length_append, List.length_append, List.length_cons] at enough
      rw [List.append_assoc, List.append_assoc, List.cons_append]
      have solid := (second.solid_joined (',' :: newline n) texts).append
        (newline m ++ close :: rest)
      have more : rows depth (joined (',' :: newline n) (y :: texts) ++
          (newline m ++ close :: rest)) = some (b :: bs, rest) :=
        ih (List.cons_ne_nil _ _) (by omega)
      generalize joined (',' :: newline n) (y :: texts) ++ (newline m ++ close :: rest) = later
        at solid more ⊢
      have read : part depth (x ++ ',' :: (newline n ++ later)) =
          some (a, ',' :: (newline n ++ later)) :=
        first.reads (by omega) (stops_cons (.inl rfl) _)
      rw [read]
      show ((rows depth (skipSpace (newline n ++ later))).bind fun r => some (a :: r.1, r.2)) = _
      rw [skipSpace_newline, solid.skipSpace, more]
      rfl

theorem spells_enclosed (depth : Nat) {texts : List (List Char)} {as : List α}
    (spelled : List.Forall₂ (Spells part) texts as) :
    Spells valueWithin (enclosed opening close depth texts) (wrap as) := by
  cases spelled with
  | nil =>
    refine ⟨⟨opening, [close], rfl, encloses.opens⟩, fun {bound rest} enough _ => ?_⟩
    obtain ⟨bound, rfl⟩ := Nat.exists_eq_add_of_le' enough
    exact encloses.empty _ _
  | @cons x a texts as first others =>
    refine ⟨⟨opening, _, rfl, encloses.opens⟩, fun {bound rest} enough _ => ?_⟩
    simp only [enclosed, List.length_cons, List.length_append] at enough
    obtain ⟨bound, rfl⟩ := Nat.exists_eq_add_of_le' (Nat.one_le_of_lt enough)
    have solid := (first.solid_joined (',' :: newline (depth + 1)) texts).append
      (newline depth ++ close :: rest)
    have read : rows bound (joined (',' :: newline (depth + 1)) (x :: texts) ++
        (newline depth ++ close :: rest)) = some (a :: as, rest) :=
      rows_joined encloses (.cons first others) (List.cons_ne_nil _ _) (by omega) rest
    have shape : enclosed opening close depth (x :: texts) ++ rest =
        opening :: (newline (depth + 1) ++ (joined (',' :: newline (depth + 1)) (x :: texts) ++
          (newline depth ++ close :: rest))) := by
      simp only [enclosed, List.cons_append, List.append_assoc, List.nil_append]
    rw [shape]
    generalize joined (',' :: newline (depth + 1)) (x :: texts) ++
      (newline depth ++ close :: rest) = inside at solid read ⊢
    have notEmpty : (skipSpace (newline (depth + 1) ++ inside)).head? ≠ some close := by
      obtain ⟨c, tail, rfl, _, noList, noTable⟩ := id solid
      rw [skipSpace_newline, solid.skipSpace, List.head?_cons]
      rintro ⟨⟩
      exact encloses.closes.elim noList noTable
    rw [encloses.enter _ _ notEmpty, skipSpace_newline, solid.skipSpace, read]
    rfl

end

theorem prettyItems_eq (depth : Nat) (items : List Value) :
    prettyItems depth items = items.map (prettyAt depth) := by
  induction items with
  | nil => rfl
  | cons v vs ih => rw [prettyItems, ih, List.map_cons]

def prettyEntry (depth : Nat) (e : String × Value) : List Char :=
  string e.1 ++ ':' :: ' ' :: prettyAt depth e.2

theorem prettyEntries_eq (depth : Nat) (entries : List (String × Value)) :
    prettyEntries depth entries = entries.map (prettyEntry depth) := by
  induction entries with
  | nil => rfl
  | cons e es ih => rw [prettyEntries, ih, List.map_cons, prettyEntry]

theorem spells_entry {depth : Nat} {e : String × Value}
    (h : Spells valueWithin (prettyAt depth e.2) e.2.toDocument) :
    Spells entryWithin (prettyEntry depth e) (some e.1, e.2.toDocument) := by
  refine ⟨⟨'"', _, rfl, by decide⟩, fun {bound rest} enough stop => ?_⟩
  have key : key? (prettyEntry depth e ++ rest) =
      some (some e.1, prettyAt depth e.2 ++ rest) := by
    have shape : prettyEntry depth e ++ rest =
        '"' :: ((string e.1).tail ++ (':' :: ' ' :: (prettyAt depth e.2 ++ rest))) := by
      rw [prettyEntry, List.append_assoc]
      rfl
    have starts : skipSpace (' ' :: (prettyAt depth e.2 ++ rest)) = prettyAt depth e.2 ++ rest :=
      (h.starts.append rest).skipSpace
    rw [shape, key?, stringBody_string]
    show some (some e.1, skipSpace (' ' :: (prettyAt depth e.2 ++ rest))) = _
    rw [starts]
  have shorter : (prettyAt depth e.2).length ≤ bound := by
    rw [prettyEntry, List.length_append, List.length_cons, List.length_cons] at enough
    omega
  rw [entryWithin, key]
  simp only [bind, Option.bind_some, h.reads shorter stop]
  rfl

theorem prettyAt_array (depth : Nat) (items : List Value) :
    prettyAt depth (.array items) = enclosed '[' ']' depth (items.map (prettyAt (depth + 1))) := by
  cases items with
  | nil => rfl
  | cons v vs =>
    rw [prettyAt, prettyItems_eq, List.map_cons, enclosed]
    · simp only [List.cons_append, List.append_assoc]
    · exact List.cons_ne_nil _ _

theorem prettyAt_object (depth : Nat) (entries : List (String × Value)) :
    prettyAt depth (.object entries) =
      enclosed '\x7b' '\x7d' depth (entries.map (prettyEntry (depth + 1))) := by
  cases entries with
  | nil => rfl
  | cons e es =>
    rw [prettyAt, prettyEntries_eq, List.map_cons, enclosed]
    · simp only [List.cons_append, List.append_assoc]
    · exact List.cons_ne_nil _ _

/-- A printed value is read as its document, however deep it stands. -/
theorem spells_prettyAt {v : Value} (exact : v.Exact) (depth : Nat) :
    Spells valueWithin (prettyAt depth v) v.toDocument := by
  induction exact generalizing depth with
  | null => exact spells_null
  | bool b => exact spells_bool b
  | int low high => exact spells_integer low high
  | str s => exact spells_string s
  | @array items _ ih =>
    rw [prettyAt_array, Value.toDocument, Value.itemDocuments_eq]
    apply spells_enclosed encloses_items
    rw [List.forall₂_map_left_iff, List.forall₂_map_right_iff, List.forall₂_same]
    exact fun v h => ih v h (depth + 1)
  | @object entries _ ih =>
    rw [prettyAt_object, Value.toDocument, Value.entryDocuments_eq]
    apply spells_enclosed encloses_entries
    rw [List.forall₂_map_left_iff, List.forall₂_map_right_iff, List.forall₂_same]
    exact fun e h => spells_entry (ih e h (depth + 1))

theorem parse?_pretty {v : Value} (exact : v.Exact) :
    parse? (pretty v) = some v.toDocument ∧ parse? (pretty v ++ "\n") = some v.toDocument := by
  have read {rest : List Char} (stop : Stops rest) (blank : skipSpace rest = []) :
      parse? (String.ofList (prettyAt 0 v ++ rest)) = some v.toDocument := by
    have spelled := spells_prettyAt exact 0
    have within : (prettyAt 0 v).length ≤ 2 * (prettyAt 0 v ++ rest).length + 1 := by
      rw [List.length_append]
      omega
    rw [parse?, String.toList_ofList, (spelled.starts.append rest).skipSpace]
    simp only [bind, spelled.reads within stop, Option.bind_some, blank, if_true]
  refine ⟨?_, ?_⟩
  · have plain := read stops_nil rfl
    rwa [List.append_nil] at plain
  · have broken := read (stops_cons (.inr rfl) []) rfl
    rwa [String.ofList_append] at broken

end Json

end CodeCache
