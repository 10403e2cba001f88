import CodeCache.Proofs.Grammar
import CodeCache.Proofs.VersionTexts
import Mathlib

/-! # What number literals denote

A number token is a digit with digits and points behind it, and a minus sign may stand before it.
The sign belongs to the text when it is read, first as an integer, digit by digit and with the sign
applied at every step, and then as a decimal fraction. Which literals are integers, which are
doubles and which are nothing is decided by their points and by the number that their digits
denote, however many zeros stand in front. -/

namespace CodeCache

namespace Number

def signed (negative : Bool) (n : Nat) : Int := if negative then -n else n

def greatest (negative : Bool) : Nat := if negative then 0x8000000000000000 else 0x7fffffffffffffff

def word? (i : Int) : Option Int64 :=
  if -0x8000000000000000 ≤ i ∧ i < 0x8000000000000000 then some (Int64.ofInt i) else none

/-- One digit more, away from zero, unless a step on the way leaves the 64 bits. -/
def pushDigit? (negative : Bool) (i : Int64) (c : Char) : Option Int64 :=
  if c.isDigit then do
    let shifted ← word? (10 * i.toInt)
    word? (shifted.toInt + signed negative (c.toNat - '0'.toNat))
  else none

def integer? (negative : Bool) (cs : List Char) : Option Int64 :=
  if cs = [] then none else cs.foldlM (pushDigit? negative) 0

/-- A decimal fraction: digits with at most one point among them. -/
def decimal? (negative : Bool) (cs : List Char) : Option Binary64 :=
  let whole := cs.takeWhile Char.isDigit
  match cs.dropWhile Char.isDigit with
  | [] => if whole = [] then none else some (.ofDecimal negative (Nat.ofDigitChars 10 whole 0) 0)
  | c :: fraction =>
    if c = '.' ∧ fraction.all Char.isDigit ∧ whole ++ fraction ≠ [] then
      let digits := Nat.ofDigitChars 10 (whole ++ fraction) 0
      some (.ofDecimal negative digits fraction.length)
    else none

def withSign {α : Type} (read : Bool → List Char → Option α) : List Char → Option α
  | '-' :: cs => read true cs
  | '+' :: cs => read false cs
  | cs => read false cs

section

variable {negative : Bool} {cs : List Char} {n m : Nat} {i : Int64}

theorem word?_signed :
    word? (signed negative n) =
      if n ≤ greatest negative then some (Int64.ofInt (signed negative n)) else none := by
  rw [word?]
  refine if_congr ?_ rfl rfl
  cases negative with
  | true => simp only [signed, greatest, if_true]; omega
  | false => simp only [signed, greatest, Bool.false_eq_true, if_false]; omega

theorem toInt_ofInt_signed (held : n ≤ greatest negative) :
    (Int64.ofInt (signed negative n)).toInt = signed negative n := by
  cases negative with
  | true =>
    simp only [signed, greatest, if_true] at *
    exact Int64.toInt_ofInt_of_le (by omega) (by omega)
  | false =>
    simp only [signed, greatest, Bool.false_eq_true, if_false] at *
    exact Int64.toInt_ofInt_of_le (by omega) (by omega)

theorem pushDigit?_digit {c : Char} (digit : c.isDigit) (h : i.toInt = signed negative n) :
    pushDigit? negative i c = word? (signed negative (10 * n + (c.toNat - '0'.toNat))) := by
  have tens : 10 * i.toInt = signed negative (10 * n) := by
    rw [h]
    cases negative with
    | true => simp only [signed, if_true]; omega
    | false => simp only [signed, Bool.false_eq_true, if_false]; omega
  have sum (d : Nat) :
      signed negative (10 * n) + signed negative d = signed negative (10 * n + d) := by
    cases negative with
    | true => simp only [signed, if_true]; omega
    | false => simp only [signed, Bool.false_eq_true, if_false]; omega
  rw [pushDigit?, if_pos digit, tens, word?_signed (n := 10 * n)]
  by_cases held : 10 * n ≤ greatest negative
  · rw [if_pos held]
    show word? ((Int64.ofInt (signed negative (10 * n))).toInt + _) = _
    rw [toInt_ofInt_signed held, sum]
  · rw [if_neg held, word?_signed, if_neg (by omega)]
    rfl

theorem le_ofDigitChars (cs : List Char) (n : Nat) : n ≤ Nat.ofDigitChars 10 cs n := by
  induction cs generalizing n with
  | nil => exact Nat.le_refl n
  | cons c cs ih =>
    rw [Nat.ofDigitChars_cons]
    exact Nat.le_trans (by omega) (ih _)

/-- The steps stay inside 64 bits exactly if their result does, because it is the greatest of
them. -/
theorem foldlM_pushDigit? (digits : ∀ c ∈ cs, c.isDigit) (h : i.toInt = signed negative n) :
    cs.foldlM (pushDigit? negative) i = word? (signed negative (Nat.ofDigitChars 10 cs n)) := by
  induction cs generalizing i n with
  | nil =>
    rw [Nat.ofDigitChars_nil, ← h, word?, if_pos ⟨i.le_toInt, i.toInt_lt⟩, Int64.ofInt_toInt]
    rfl
  | cons c cs ih =>
    obtain ⟨digit, digits⟩ := List.forall_mem_cons.1 digits
    rw [List.foldlM_cons, pushDigit?_digit digit h, Nat.ofDigitChars_cons, word?_signed]
    by_cases held : 10 * n + (c.toNat - '0'.toNat) ≤ greatest negative
    · rw [if_pos held]
      exact ih digits (toInt_ofInt_signed held)
    · -- more digits only make the number greater, so it does not come back inside
      have larger := le_ofDigitChars cs (10 * n + (c.toNat - '0'.toNat))
      rw [if_neg held, word?_signed, if_neg (by omega)]
      rfl

theorem integer?_digits (nonempty : cs ≠ []) (digits : ∀ c ∈ cs, c.isDigit) :
    integer? negative cs = word? (signed negative (Nat.ofDigitChars 10 cs 0)) := by
  rw [integer?, if_neg nonempty]
  refine foldlM_pushDigit? digits ?_
  cases negative <;> rfl

/-- A point is no digit of an integer. -/
theorem integer?_point {rest : List Char} : integer? negative (cs ++ '.' :: rest) = none := by
  have stops (i : Int64) : (cs ++ '.' :: rest).foldlM (pushDigit? negative) i = none := by
    induction cs generalizing i with
    | nil =>
      rw [List.nil_append, List.foldlM_cons, pushDigit?, if_neg (by decide)]
      rfl
    | cons c cs ih =>
      rw [List.cons_append, List.foldlM_cons]
      cases pushDigit? negative i c with
      | none => rfl
      | some j => exact ih j
  rw [integer?, stops, ite_self]

theorem digits_before_point {rest : List Char} (digits : ∀ c ∈ cs, c.isDigit) :
    (cs ++ '.' :: rest).takeWhile Char.isDigit = cs ∧
      (cs ++ '.' :: rest).dropWhile Char.isDigit = '.' :: rest := by
  have all : cs.all Char.isDigit := by simpa using digits
  refine Script.takeWhile_stops all ?_
  rintro c ⟨⟩
  decide

theorem decimal?_digits (nonempty : cs ≠ []) (digits : ∀ c ∈ cs, c.isDigit) :
    decimal? negative cs = some (.ofDecimal negative (Nat.ofDigitChars 10 cs 0) 0) := by
  have all : cs.all Char.isDigit := by simpa using digits
  have stop : ∀ c, ([] : List Char).head? = some c → c.isDigit = false := nofun
  obtain ⟨taken, dropped⟩ := Script.takeWhile_stops all stop
  rw [List.append_nil] at taken dropped
  rw [decimal?, taken, dropped]
  exact if_neg nonempty

theorem decimal?_point {rest : List Char} (nonempty : cs ≠ []) (digits : ∀ c ∈ cs, c.isDigit) :
    decimal? negative (cs ++ '.' :: rest) =
      if rest.all Char.isDigit then
        some (.ofDecimal negative (Nat.ofDigitChars 10 (cs ++ rest) 0) rest.length)
      else none := by
  obtain ⟨taken, dropped⟩ := digits_before_point digits
  rw [decimal?, taken, dropped]
  by_cases fraction : rest.all Char.isDigit
  · rw [if_pos fraction]
    exact if_pos ⟨rfl, fraction, by simp [nonempty]⟩
  · rw [if_neg fraction]
    exact if_neg fun h => fraction h.2.1

end

end Number

namespace Script

open Number

variable {negative : Bool} {text : String} {cs : List Char} {n : Nat}

def isNumeral (s : String) : Bool :=
  match s.toList with
  | [] => false
  | c :: cs => c.isDigit && cs.all Token.isNumberPart

theorem numeral_scan {source : List Char} {ts : List Token} (h : Token.scan source = .ok ts) :
    ∀ text, .num text ∈ ts → isNumeral text := by
  fun_induction Token.scan source generalizing ts with
  | case1 =>
    cases h
    simp
  | case2 _ _ _ ih => exact ih h
  | case3 _ _ _ _ ih => exact ih h
  | case4 => cases h
  | case5 _ _ _ _ _ _ _ ih => exact ih h
  | case6 => cases h
  | case7 _ _ _ _ _ _ _ _ _ ih =>
    obtain ⟨us, hu, rfl⟩ := map_eq_ok.1 h
    simpa using ih hu
  | case8 c rest _ _ _ _ digit ih =>
    obtain ⟨us, hu, rfl⟩ := map_eq_ok.1 h
    intro text listed
    rcases List.mem_cons.1 listed with same | listed
    · cases same
      simp [isNumeral, digit]
    · exact ih hu text listed
  | case9 _ _ _ _ _ _ _ _ ih =>
    obtain ⟨us, hu, rfl⟩ := map_eq_ok.1 h
    simpa using ih hu
  | case10 _ _ _ _ _ _ _ _ _ ih =>
    obtain ⟨us, hu, rfl⟩ := map_eq_ok.1 h
    simpa using ih hu
  | case11 => cases h

inductive Shape : List Char → Prop
  | whole {cs : List Char} (nonempty : cs ≠ []) (digits : ∀ c ∈ cs, c.isDigit) : Shape cs
  | point {cs fraction : List Char} (nonempty : cs ≠ []) (digits : ∀ c ∈ cs, c.isDigit)
      (digits' : ∀ c ∈ fraction, c.isDigit) : Shape (cs ++ '.' :: fraction)
  | points {cs rest : List Char} (nonempty : cs ≠ []) (digits : ∀ c ∈ cs, c.isDigit)
      (more : '.' ∈ rest) : Shape (cs ++ '.' :: rest)

theorem shape_of_numeral (h : isNumeral text) : Shape text.toList := by
  rw [isNumeral] at h
  split at h
  case h_1 => cases h
  case h_2 c cs spelled =>
    obtain ⟨digit, parts⟩ := Bool.and_eq_true_iff.1 h
    rw [spelled]
    have split : cs.takeWhile Char.isDigit ++ cs.dropWhile Char.isDigit = cs :=
      List.takeWhile_append_dropWhile
    have digits : ∀ d ∈ c :: cs.takeWhile Char.isDigit, d.isDigit :=
      List.forall_mem_cons.2 ⟨digit, fun d => List.mem_takeWhile_imp⟩
    have part (d : Char) (h : d ∈ cs) : d.isDigit ∨ d = '.' := by
      simpa [Token.isNumberPart] using List.all_eq_true.1 parts d h
    cases tail : cs.dropWhile Char.isDigit with
    | nil =>
      rw [tail, List.append_nil] at split
      rw [split] at digits
      exact .whole (List.cons_ne_nil _ _) digits
    | cons d rest =>
      -- the first character behind the digits is no digit, so it is a point
      have stop : d.isDigit = false := Text.head?_dropWhile (by rw [tail]; rfl)
      rw [tail] at split
      have among (e : Char) (h : e ∈ d :: rest) : e ∈ cs := by
        rw [← split]
        exact List.mem_append_right _ h
      have point : d = '.' := (part d (among d (.head _))).resolve_left (by simp [stop])
      subst point
      rw [← split, ← List.cons_append]
      by_cases more : '.' ∈ rest
      · exact .points (List.cons_ne_nil _ _) digits more
      · refine .point (List.cons_ne_nil _ _) digits fun e h => ?_
        exact (part e (among e (.tail _ h))).resolve_right fun same => more (same ▸ h)

def signedText (negative : Bool) (text : String) : String :=
  if negative then "-" ++ text else text

/-- The text with its sign as an integer, and failing that as a decimal fraction. -/
def readInTurn (negative : Bool) (text : String) : Except SyntaxError Expr :=
  let signed := signedText negative text
  match withSign integer? signed.toList with
  | some i => .ok (.int i)
  | none =>
    match withSign decimal? signed.toList with
    | some x => .ok (.float x)
    | none => .error (.invalidNumber signed)

theorem withSign_signedText {α : Type} {read : Bool → List Char → Option α}
    (h : isNumeral text) :
    withSign read (signedText negative text).toList = read negative text.toList := by
  rw [isNumeral] at h
  split at h
  case h_1 => cases h
  case h_2 c cs spelled =>
    have digit : c.isDigit := (Bool.and_eq_true_iff.1 h).1
    cases negative with
    | true =>
      rw [signedText, if_pos rfl, String.toList_append]
      rfl
    | false =>
      rw [signedText, if_neg (by decide), spelled, withSign]
      · rintro cs ⟨⟩
        exact absurd digit (by decide)
      · rintro cs ⟨⟩
        exact absurd digit (by decide)

theorem count_no_point (digits : ∀ c ∈ cs, c.isDigit) : cs.count '.' = 0 :=
  List.count_eq_zero.2 fun point => absurd (digits '.' point) (by decide)

theorem count_one_point {fraction : List Char} (digits : ∀ c ∈ cs, c.isDigit)
    (digits' : ∀ c ∈ fraction, c.isDigit) : (cs ++ '.' :: fraction).count '.' = 1 := by
  rw [List.count_append, List.count_cons_self, count_no_point digits, count_no_point digits']

theorem count_more_points {rest : List Char} (more : '.' ∈ rest) :
    2 ≤ (cs ++ '.' :: rest).count '.' := by
  rw [List.count_append, List.count_cons_self]
  have := List.count_pos_iff.2 more
  omega

theorem filter_digits (digits : ∀ c ∈ cs, c.isDigit) : cs.filter Char.isDigit = cs :=
  List.filter_eq_self.2 digits

theorem number_whole (digits : ∀ c ∈ text.toList, c.isDigit) :
    number negative text =
      if Nat.ofDigitChars 10 text.toList 0 ≤ greatest negative then
        .ok (.int (Int64.ofInt (signed negative (Nat.ofDigitChars 10 text.toList 0))))
      else .ok (.float (.ofDecimal negative (Nat.ofDigitChars 10 text.toList 0) 0)) := by
  rw [number, count_no_point digits, filter_digits digits]
  cases negative with
  | true => simp [greatest, signed]
  | false => simp [greatest, signed, Nat.lt_succ_iff]

theorem number_point {fraction : List Char} (spelled : text.toList = cs ++ '.' :: fraction)
    (digits : ∀ c ∈ cs, c.isDigit) (digits' : ∀ c ∈ fraction, c.isDigit) :
    number negative text =
      .ok (.float (.ofDecimal negative (Nat.ofDigitChars 10 (cs ++ fraction) 0)
        fraction.length)) := by
  have count : text.toList.count '.' = 1 := spelled ▸ count_one_point digits digits'
  have point : ('.' :: fraction).filter Char.isDigit = fraction := by
    rw [List.filter_cons_of_neg (by decide), filter_digits digits']
  rw [number, count, spelled, (digits_before_point digits).2, List.filter_append,
    filter_digits digits, point]
  rfl

theorem number_points (points : 2 ≤ text.toList.count '.') :
    number negative text = .error (.invalidNumber (signedText negative text)) := by
  obtain ⟨more, count⟩ := Nat.exists_eq_add_of_le' points
  rw [number, count]
  rfl

/-- Reading a literal is reading an integer and then, where that fails, a decimal fraction. -/
theorem number_eq_readInTurn (h : isNumeral text) :
    number negative text = readInTurn negative text := by
  rw [readInTurn, withSign_signedText h, withSign_signedText h]
  generalize spelled : text.toList = cs
  have shape := shape_of_numeral h
  rw [spelled] at shape
  cases shape with
  | whole nonempty digits =>
    subst spelled
    rw [integer?_digits nonempty digits, word?_signed, decimal?_digits nonempty digits,
      number_whole digits]
    split <;> rfl
  | @point cs fraction nonempty digits digits' =>
    have all : fraction.all Char.isDigit := by simpa using digits'
    rw [integer?_point, decimal?_point nonempty digits, if_pos all,
      number_point spelled digits digits']
  | @points cs rest nonempty digits more =>
    have notAll : ¬rest.all Char.isDigit := fun all =>
      absurd (List.all_eq_true.1 all '.' more) (by decide)
    have points : 2 ≤ text.toList.count '.' := spelled ▸ count_more_points more
    rw [integer?_point, decimal?_point nonempty digits, if_neg notAll, number_points points]

def literalTokens (negative : Bool) (text : String) (rest : List Token) : List Token :=
  if negative then .punct '-' :: .num text :: rest else .num text :: rest

theorem atom_literal (rest : List Token) :
    atom (literalTokens negative text rest) = (number negative text).map (·, rest) := by
  cases negative with
  | true =>
    rw [literalTokens, if_pos rfl, atom, if_pos rfl]
    cases number true text <;> rfl
  | false =>
    rw [literalTokens, if_neg (by decide), atom]
    cases number false text <;> rfl

theorem isNaN_ofDecimal (negative : Bool) (digits places : Nat) :
    (Binary64.ofDecimal negative digits places).isNaN = false :=
  isNaN_ofQuotient negative digits _

/-- Without a point a number is an integer if 64 bits hold it and a double otherwise; with one it is
a double, and with more it is refused. -/
structure Classifies (negative : Bool) (text : String) (out : Except SyntaxError Expr) : Prop where
  whole : text.toList.count '.' = 0 → ∃ n, Denotes text.toList n ∧
    ((∃ i, out = .ok (.int i)) ↔ n ≤ greatest negative) ∧
    (∀ i, out = .ok (.int i) → i.toInt = signed negative n) ∧
    (greatest negative < n → ∃ x, out = .ok (.float x) ∧ x.isNaN = false)
  point : text.toList.count '.' = 1 → ∃ x, out = .ok (.float x) ∧ x.isNaN = false
  points : (∃ e, out = .error e) ↔ 2 ≤ text.toList.count '.'
  refused : ∀ e, out = .error e → e = .invalidNumber (signedText negative text)

theorem classifies_number (h : isNumeral text) :
    Classifies negative text (number negative text) := by
  have shape := shape_of_numeral h
  generalize spelled : text.toList = cs at shape
  cases shape with
  | whole nonempty digits =>
    subst spelled
    have noPoint : text.toList.count '.' = 0 := count_no_point digits
    have denotes := denotes_of_digits nonempty digits
    rw [number_whole digits]
    generalize Nat.ofDigitChars 10 text.toList 0 = n at denotes
    by_cases held : n ≤ greatest negative
    · rw [if_pos held]
      refine ⟨fun _ => ⟨n, denotes, ⟨fun _ => held, fun _ => ⟨_, rfl⟩⟩, ?_, ?_⟩, ?_, ?_, nofun⟩
      · rintro i ⟨⟩
        exact toInt_ofInt_signed held
      · exact fun large => absurd held (Nat.not_le.2 large)
      · omega
      · exact ⟨nofun, by omega⟩
    · rw [if_neg held]
      refine ⟨fun _ => ⟨n, denotes, ⟨nofun, fun small => absurd small held⟩, nofun, ?_⟩, ?_, ?_,
        nofun⟩
      · exact fun _ => ⟨_, rfl, isNaN_ofDecimal _ _ _⟩
      · omega
      · exact ⟨nofun, by omega⟩
  | @point cs fraction nonempty digits digits' =>
    have count : text.toList.count '.' = 1 := spelled ▸ count_one_point digits digits'
    rw [number_point spelled digits digits']
    refine ⟨by omega, fun _ => ⟨_, rfl, isNaN_ofDecimal _ _ _⟩, ⟨nofun, by omega⟩, nofun⟩
  | @points cs rest nonempty digits more =>
    have count : 2 ≤ text.toList.count '.' := spelled ▸ count_more_points more
    rw [number_points count]
    refine ⟨by omega, by omega, ⟨fun _ => count, fun _ => ⟨_, rfl⟩⟩, ?_⟩
    rintro e ⟨⟩
    rfl

section

variable {α : Type} {ts rest : List Token} {depth : Nat} {e : Expr}

def Legible (ts : List Token) : Prop := ∀ text, .num text ∈ ts → text.toList.count '.' < 2

@[simp] theorem legible_ident {name : String} : Legible (.ident name :: ts) ↔ Legible ts := by
  simp [Legible]

@[simp] theorem legible_str {text : String} : Legible (.str text :: ts) ↔ Legible ts := by
  simp [Legible]

@[simp] theorem legible_punct {c : Char} : Legible (.punct c :: ts) ↔ Legible ts := by
  simp [Legible]

@[simp] theorem legible_num {text : String} :
    Legible (.num text :: ts) ↔ text.toList.count '.' < 2 ∧ Legible ts := by
  simp [Legible]

def Passes (production : List Token → Except SyntaxError (Parsed α)) : Prop :=
  ∀ {ts x rest}, production ts = .ok (x, rest) → Legible rest → Legible ts

theorem count_lt_of_number (h : number negative text = .ok e) : text.toList.count '.' < 2 := by
  by_contra points
  rw [number_points (Nat.le_of_not_lt points)] at h
  cases h

theorem ListForm.legible {close : Char} {part : List Token → Except SyntaxError (Parsed α)}
    {again : List Token → Except SyntaxError (Parsed (List α))} {xs : List α}
    (form : ListForm close part again ts xs rest) (part_passes : Passes part)
    (again_passes : Passes again) (legible : Legible rest) : Legible ts := by
  cases form with
  | done => exact legible_punct.2 legible
  | last part_ok => exact part_passes part_ok (legible_punct.2 legible)
  | more part_ok again_ok =>
    exact part_passes part_ok (legible_punct.2 (again_passes again_ok legible))

theorem passes_nameAndAlias : Passes nameAndAlias := by
  intro ts pair rest h legible
  cases nameAndAlias_form h <;> simpa using legible

theorem passes_aliases (depth : Nat) : Passes (aliases depth) := by
  induction depth with
  | zero => intro ts pairs rest h; cases h
  | succ depth ih =>
    intro ts pairs rest h
    exact (aliases_form h).legible passes_nameAndAlias ih

theorem AtomForm.legible (form : AtomForm ts e rest) (legible : Legible rest) : Legible ts := by
  cases form with
  | number number_ok => exact legible_num.2 ⟨count_lt_of_number number_ok, legible⟩
  | negative number_ok =>
    exact legible_punct.2 (legible_num.2 ⟨count_lt_of_number number_ok, legible⟩)
  | str => exact legible_str.2 legible
  | word => exact legible_ident.2 legible

theorem MembersForm.legible {target : Expr} (form : MembersForm target ts e rest)
    (legible : Legible rest) : Legible ts := by
  induction form with
  | done => exact legible
  | key _ ih => exact legible_punct.2 (legible_ident.2 (ih legible))

theorem passes_property {value : List Token → Except SyntaxError (Parsed Expr)}
    (value_passes : Passes value) : Passes (property value) := by
  have key_passes : Passes propertyKey := by
    intro ts key rest h legible
    rcases propertyKey_eq_ok.1 h with rfl | rfl
    · exact legible_ident.2 legible
    · exact legible_str.2 legible
  intro ts p rest h legible
  cases property_form h with
  | shorthand key_ok => exact key_passes key_ok legible
  | full key_ok value_ok =>
    exact key_passes key_ok (legible_punct.2 (value_passes value_ok legible))

theorem passes_nested (depth : Nat) :
    Passes (exprWithin depth) ∧ Passes (itemsWithin depth) ∧ Passes (propertiesWithin depth) := by
  induction depth with
  | zero =>
    refine ⟨?_, ?_, ?_⟩
    all_goals
      intro ts x rest h
      cases h
  | succ depth ih =>
    obtain ⟨expr_passes, items_pass, properties_pass⟩ := ih
    refine ⟨?_, ?_, ?_⟩
    · intro ts e rest h legible
      obtain ⟨operand, after, form, last⟩ := exprWithin_form h
      have legible := last.legible legible
      cases form with
      | array items_ok => exact legible_punct.2 (items_pass items_ok legible)
      | object properties_ok => exact legible_punct.2 (properties_pass properties_ok legible)
      | atom form => exact form.legible legible
    · intro ts es rest h
      exact (itemsWithin_form h).legible expr_passes items_pass
    · intro ts ps rest h
      exact (propertiesWithin_form h).legible (passes_property expr_passes) properties_pass

theorem passes_expr : Passes expr := (passes_nested _).1

theorem DeclarationForm.legible {name : String} (form : DeclarationForm ts name e rest)
    (legible : Legible rest) : Legible ts := by
  cases form with
  | intro _ value_ok =>
    have value := passes_expr value_ok legible
    simpa using value

theorem StmtForm.legible {st : Stmt} (form : StmtForm ts st rest) (legible : Legible rest) :
    Legible ts := by
  cases form with
  | exportDefault value_ok =>
    have value := passes_expr value_ok legible
    simpa using value
  | exportList names_ok =>
    have names := passes_aliases _ names_ok legible
    simpa using names
  | exportDeclare form => exact legible_ident.2 (form.legible legible)
  | throw value_ok => exact legible_ident.2 (passes_expr value_ok legible)
  | declare form => exact form.legible legible
  | expr value_ok => exact passes_expr value_ok legible

theorem GroupForm.legible {bs : List Binding} (form : GroupForm ts bs rest)
    (legible : Legible rest) : Legible ts := by
  cases form with
  | everything => simpa using legible
  | named names_ok => exact legible_punct.2 (passes_aliases _ names_ok legible)

theorem BindingsForm.legible {bs : List Binding} (form : BindingsForm ts bs rest)
    (legible : Legible rest) : Legible ts := by
  cases form with
  | alone => exact legible_ident.2 legible
  | both form => exact legible_ident.2 (legible_punct.2 (form.legible legible))
  | group form => exact form.legible legible

theorem ImportForm.legible {i : Import} (form : ImportForm ts i rest) (legible : Legible rest) :
    Legible ts := by
  cases form with
  | bare => exact legible_str.2 legible
  | binding form => exact form.legible (legible_ident.2 (legible_str.2 legible))

theorem ScriptForm.legible {s : Script} (form : ScriptForm ts s) : Legible ts := by
  induction form with
  | done => exact nofun
  | separator _ ih => exact legible_punct.2 ih
  | importDecl first _ ih => exact legible_ident.2 (first.legible ih)
  | stmt first _ _ ih => exact first.legible ih

theorem legible_of_parse {source : String} {s : Script} (h : parse source = .ok s)
    (scanned : Token.scan source.toList = .ok ts) : Legible ts := by
  obtain ⟨us, scanned', parsed⟩ := bind_eq_ok.1 h
  cases scanned.symm.trans scanned'
  exact (script_form parsed).legible

end

/-- A number token, with or without a minus sign before it, is read as an integer with its sign
first and as a decimal fraction then. Without a point it is an integer up to `2 ^ 63 - 1`, or up to
`2 ^ 63` behind a minus sign, whatever zeros stand in front, and a double beyond; with one point it
is a double; with more points, and then only, it is a syntax error, which shows the text with its
sign, and the source that it stands in denotes no script. -/
theorem literal_exact {source : String} {ts : List Token} {text : String}
    (scanned : Token.scan source.toList = .ok ts) (listed : .num text ∈ ts) (negative : Bool)
    (rest : List Token) :
    atom (literalTokens negative text rest) = (number negative text).map (·, rest) ∧
    number negative text = readInTurn negative text ∧
    Classifies negative text (number negative text) ∧
    (2 ≤ text.toList.count '.' → ∃ e, parse source = .error e) := by
  have numeral := numeral_scan scanned text listed
  refine ⟨atom_literal rest, number_eq_readInTurn numeral, classifies_number numeral, ?_⟩
  intro points
  cases read : parse source with
  | error e => exact ⟨e, rfl⟩
  | ok s => exact absurd (legible_of_parse read scanned text listed) (Nat.not_lt.2 points)

/-- The least integer with zeros in front, the same digits without the minus sign, and a number with
two points. -/
theorem literal_exact_least :
    Token.scan "-0009223372036854775808 1.2.".toList =
        .ok [.punct '-', .num "0009223372036854775808", .num "1.2."] ∧
      (∃ i, atom [.punct '-', .num "0009223372036854775808"] = .ok (.int i, []) ∧
        i.toInt = -0x8000000000000000) ∧
      (∃ x, atom [.num "0009223372036854775808"] = .ok (.float x, []) ∧ x.isNaN = false) ∧
      ∃ e, parse "-0009223372036854775808 1.2." = .error e := by
  have scanned : Token.scan "-0009223372036854775808 1.2.".toList =
      .ok [.punct '-', .num "0009223372036854775808", .num "1.2."] := by
    cbv
  have listed : Token.num "0009223372036854775808" ∈
      [.punct '-', .num "0009223372036854775808", .num "1.2."] := by
    simp
  have listed' : Token.num "1.2." ∈
      [.punct '-', .num "0009223372036854775808", .num "1.2."] := by
    simp
  have noPoint : "0009223372036854775808".toList.count '.' = 0 := by decide
  have value {n : Nat} (h : Denotes "0009223372036854775808".toList n) :
      n = 0x8000000000000000 := by
    have read : readNat? "0009223372036854775808".toList = some 0x8000000000000000 := by decide
    exact Option.some.inj (h.read.symm.trans read)
  refine ⟨scanned, ?_, ?_, ?_⟩
  · obtain ⟨token, -, classifies, -⟩ := literal_exact scanned listed true []
    obtain ⟨n, denotes, held, exactly, -⟩ := classifies.whole noPoint
    cases value denotes
    obtain ⟨i, read⟩ := held.2 (by decide)
    refine ⟨i, ?_, exactly i read⟩
    rw [read] at token
    exact token
  · obtain ⟨token, -, classifies, -⟩ := literal_exact scanned listed false []
    obtain ⟨n, denotes, -, -, large⟩ := classifies.whole noPoint
    cases value denotes
    obtain ⟨x, read, number⟩ := large (by decide)
    rw [read] at token
    exact ⟨x, token, number⟩
  · exact (literal_exact scanned listed' false []).2.2.2 (by decide)

end Script

end CodeCache
