import CodeCache.Proofs.Grammar

/-! # Writing scripts down

A script without doubles is written as a text that parses to it. Every token is followed by a space,
every list has a comma after each part, a declaration begins with `const`, names in braces always
have an alias and every import and statement ends with a semicolon. A text is quoted with a
backslash before quotes and backslashes and with `\n` for a line break. -/

namespace CodeCache.Script

def digits (n : Nat) : String := String.ofList (Nat.toDigits 10 n)

def intTokens (i : Int64) : List Token :=
  if i.toInt < 0 then [.punct '-', .num (digits i.toInt.natAbs)] else [.num (digits i.toInt.natAbs)]

mutual
def exprTokens : Expr → List Token
  | .null => [.ident "null"]
  | .bool b => [.ident (if b then "true" else "false")]
  | .int i => intTokens i
  | .float _ => []
  | .str s => [.str s]
  | .array es => .punct '[' :: (itemTokens es ++ [.punct ']'])
  | .object ps => .punct '\x7b' :: (propertyTokens ps ++ [.punct '\x7d'])
  | .ident name => [.ident name]
  | .member target key => exprTokens target ++ [.punct '.', .ident key]
def itemTokens : List Expr → List Token
  | [] => []
  | e :: es => exprTokens e ++ .punct ',' :: itemTokens es
def propertyTokens : List (String × Expr) → List Token
  | [] => []
  | (key, e) :: ps =>
    .str key :: ((if isShorthand key e then [] else .punct ':' :: exprTokens e) ++
      .punct ',' :: propertyTokens ps)
end

def aliasTokens (pairs : List (String × String)) : List Token :=
  pairs.flatMap fun p => [.ident p.1, .ident "as", .ident p.2, .punct ',']

def stmtTokens : Stmt → List Token
  | .declare name init exported =>
    (if exported then [.ident "export"] else []) ++
      .ident "const" :: .ident name :: .punct '=' :: exprTokens init
  | .exportDefault e => .ident "export" :: .ident "default" :: exprTokens e
  | .exportList pairs =>
    .ident "export" :: .punct '\x7b' :: (aliasTokens pairs ++ [.punct '\x7d'])
  | .throw e => .ident "throw" :: exprTokens e
  | .expr e => exprTokens e

def bindingNames : Binding → String × String
  | .named imported name => (imported, name)
  | .defaultExport name | .everything name => (name, name)

def groupTokens : List Binding → List Token
  | [.everything name] => [.punct '*', .ident "as", .ident name]
  | bs => .punct '\x7b' :: (aliasTokens (bs.map bindingNames) ++ [.punct '\x7d'])

def bindingTokens : List Binding → List Token
  | [.defaultExport name] => [.ident name]
  | .defaultExport name :: bs => .ident name :: .punct ',' :: groupTokens bs
  | bs => groupTokens bs

def importTokens (i : Import) : List Token :=
  match i.bindings with
  | [] => [.str i.specifier]
  | bs => bindingTokens bs ++ [.ident "from", .str i.specifier]

def importLine (i : Import) : List Token := .ident "import" :: (importTokens i ++ [.punct ';'])

def stmtLine (st : Stmt) : List Token := stmtTokens st ++ [.punct ';']

def scriptTokens (s : Script) : List Token :=
  s.imports.flatMap importLine ++ s.body.flatMap stmtLine

def escape (c : Char) : List Char :=
  if c = '\n' then ['\\', 'n'] else if c = '"' ∨ c = '\\' then ['\\', c] else [c]

def Token.spell : Token → List Char
  | .ident name => name.toList
  | .str text => '"' :: (text.toList.flatMap escape ++ ['"'])
  | .num text => text.toList
  | .punct c => [c]

def render (s : Script) : String :=
  String.ofList ((scriptTokens s).flatMap fun t => t.spell ++ [' '])

theorem scanString_escape (text done rest : List Char) :
    Token.scanString '"' done (text.flatMap escape ++ '"' :: rest) =
      some (done.reverse ++ text, rest) := by
  induction text generalizing done with
  | nil =>
    rw [List.flatMap_nil, List.nil_append, Token.scanString.eq_def]
    simp
  | cons c text ih =>
    rw [List.flatMap_cons, List.append_assoc]
    by_cases newline : c = '\n'
    · subst newline
      simp [escape, Token.scanString, Token.unescape, ih]
    by_cases quote : c = '"'
    · subst quote
      simp [escape, Token.scanString, Token.unescape, ih]
    by_cases backslash : c = '\\'
    · subst backslash
      simp [escape, Token.scanString, Token.unescape, ih]
    · have plain : escape c = [c] := by simp [escape, newline, quote, backslash]
      rw [plain, List.singleton_append, Token.scanString.eq_def]
      simp [newline, quote, backslash, ih]

theorem scan_space (rest : List Char) : Token.scan (' ' :: rest) = Token.scan rest := by
  rw [Token.scan, if_pos (by decide)]

/-- The characters that separate words or begin another token. -/
def boundaries : List Nat :=
  Text.blankRanges.flatMap (fun r => List.range' r.1 (r.2 + 1 - r.1)) ++
    ([0x200b, 0xfeff] ++ List.range' 48 10 ++ ['/', '"', '\''].map Char.toNat)

theorem mem_boundaries_of_isSpace {c : Char} (h : Token.isSpace c) : c.toNat ∈ boundaries := by
  simp only [Token.isSpace, Text.isBlank, Text.inRanges, Bool.or_eq_true, List.any_eq_true,
    Bool.and_eq_true, decide_eq_true_eq] at h
  rcases h with (⟨r, listed, low, high⟩ | rfl) | rfl
  · refine List.mem_append_left _ (List.mem_flatMap.2 ⟨r, listed, ?_⟩)
    rw [List.mem_range'_1]
    omega
  · decide +kernel
  · decide +kernel

theorem mem_digits {c : Char} (h : c.isDigit) : c.toNat ∈ List.range' 48 10 := by
  rw [List.mem_range'_1]
  simp only [Char.isDigit, Bool.and_eq_true, decide_eq_true_eq, UInt32.le_iff_toNat_le] at h
  exact ⟨h.1, Nat.lt_succ_of_le h.2⟩

theorem mem_boundaries_of_isDigit {c : Char} (h : c.isDigit) : c.toNat ∈ boundaries := by
  simp [boundaries, mem_digits h]

theorem not_mem_boundaries_of_isWordStart {c : Char} (h : Token.isWordStart c) :
    c.toNat ∉ boundaries := by
  have table : ∀ n ∈ boundaries, Token.isWordStart (Char.ofNat n) = false := by decide +kernel
  intro listed
  have entry := table c.toNat listed
  rw [Char.ofNat_toNat, h] at entry
  cases entry

/-- The rest after a token does not go on with it. -/
def Token.Stops (t : Token) (rest : List Char) : Prop :=
  match t with
  | .ident _ => ∀ c, rest.head? = some c → isWordPart c = false
  | .num _ => ∀ c, rest.head? = some c → isNumberPart c = false
  | .str _ | .punct _ => True

theorem stops_space (t : Token) (rest : List Char) : t.Stops (' ' :: rest) := by
  cases t with
  | ident | num =>
    rintro c ⟨⟩
    decide
  | str | punct => trivial

theorem takeWhile_stops {p : Char → Bool} {cs rest : List Char} (all : cs.all p)
    (stop : ∀ c, rest.head? = some c → p c = false) :
    (cs ++ rest).takeWhile p = cs ∧ (cs ++ rest).dropWhile p = rest := by
  have every : ∀ c ∈ cs, p c := by simpa using all
  rw [List.takeWhile_append_of_pos every, List.dropWhile_append_of_pos every]
  cases rest with
  | nil => simp
  | cons c rest => simp [stop c rfl]

theorem scan_ident {name : String} (h : isName name) {rest : List Char}
    (stop : Token.Stops (.ident name) rest) :
    Token.scan (name.toList ++ rest) = (Token.scan rest).map (.ident name :: ·) := by
  rw [isName] at h
  split at h
  case h_1 => cases h
  case h_2 c cs spelled =>
    obtain ⟨start, all⟩ := Bool.and_eq_true_iff.1 h
    have other := not_mem_boundaries_of_isWordStart start
    have noSpace : ¬Token.isSpace c := fun space => other (mem_boundaries_of_isSpace space)
    have noDigit : ¬c.isDigit := fun digit => other (mem_boundaries_of_isDigit digit)
    have noSlash : c ≠ '/' := by
      rintro rfl
      exact other (by decide +kernel)
    have noQuote : ¬(c = '"' ∨ c = '\'') := by
      rintro (rfl | rfl)
      · exact other (by decide +kernel)
      · exact other (by decide +kernel)
    obtain ⟨taken, dropped⟩ := takeWhile_stops all stop
    rw [spelled, List.cons_append, Token.scan, if_neg noSpace, if_neg (by simp [noSlash]),
      if_neg (by simp [noSlash]), if_neg noQuote, if_neg noDigit, if_pos start, taken, dropped,
      ← spelled, String.ofList_toList]

theorem scan_num {text : String} (nonempty : text.toList ≠ []) (all : text.toList.all Char.isDigit)
    {rest : List Char} (stop : Token.Stops (.num text) rest) :
    Token.scan (text.toList ++ rest) = (Token.scan rest).map (.num text :: ·) := by
  have table : ∀ n ∈ List.range' 48 10, Token.isSpace (Char.ofNat n) = false ∧
      Char.ofNat n ≠ '/' ∧ ¬(Char.ofNat n = '"' ∨ Char.ofNat n = '\'') := by
    decide +kernel
  cases spelled : text.toList with
  | nil => exact absurd spelled nonempty
  | cons c cs =>
    rw [spelled, List.all_cons, Bool.and_eq_true] at all
    obtain ⟨digit, all⟩ := all
    have entry := table c.toNat (mem_digits digit)
    rw [Char.ofNat_toNat] at entry
    obtain ⟨noSpace, noSlash, noQuote⟩ := entry
    have parts : cs.all Token.isNumberPart := by
      simp only [List.all_eq_true, Token.isNumberPart, Bool.or_eq_true] at *
      exact fun d hd => .inl (all d hd)
    obtain ⟨taken, dropped⟩ := takeWhile_stops parts stop
    rw [List.cons_append, Token.scan, if_neg (by simp [noSpace]), if_neg (by simp [noSlash]),
      if_neg (by simp [noSlash]), if_neg noQuote, if_pos digit, taken, dropped, ← spelled,
      String.ofList_toList]

theorem scan_str (text : String) (rest : List Char) :
    Token.scan (Token.spell (.str text) ++ rest) = (Token.scan rest).map (.str text :: ·) := by
  have read : Token.scanString '"' [] (text.toList.flatMap escape ++ '"' :: rest) =
      some (text.toList, rest) := scanString_escape text.toList [] _
  rw [Token.spell, List.cons_append, List.append_assoc, List.singleton_append, Token.scan,
    if_neg (by decide), if_neg (by simp), if_neg (by simp), if_pos (.inl rfl)]
  split
  case h_1 failed =>
    rw [read] at failed
    cases failed
  case h_2 found =>
    rw [read] at found
    cases found
    rw [String.ofList_toList]

theorem scan_punct {c : Char} (h : Token.isPunct c) (rest : List Char) :
    Token.scan (c :: rest) = (Token.scan rest).map (.punct c :: ·) := by
  have table : "\x7b\x7d[](),;:=.*-".toList.all fun c => !Token.isSpace c && c != '/' &&
      !(c == '"' || c == '\'') && !c.isDigit && !Token.isWordStart c := by
    decide +kernel
  have entry := List.all_eq_true.1 table c (by simpa [Token.isPunct] using h)
  simp only [Bool.and_eq_true, Bool.not_eq_true', bne_iff_ne, Bool.or_eq_false_iff,
    beq_eq_false_iff_ne] at entry
  obtain ⟨⟨⟨⟨noSpace, noSlash⟩, noQuote⟩, noDigit⟩, noWord⟩ := entry
  rw [Token.scan, if_neg (by simp [noSpace]), if_neg (by simp [noSlash]),
    if_neg (by simp [noSlash]), if_neg (by simp [noQuote]), if_neg (by simp [noDigit]),
    if_neg (by simp [noWord]), if_pos h]

def Token.isWritable : Token → Bool
  | .ident name => isName name
  | .str _ => true
  | .num text => !text.toList.isEmpty && text.toList.all Char.isDigit
  | .punct c => isPunct c

theorem scan_spell {t : Token} (h : t.isWritable) {rest : List Char} (stop : t.Stops rest) :
    Token.scan (t.spell ++ rest) = (Token.scan rest).map (t :: ·) := by
  cases t with
  | ident name => exact scan_ident h stop
  | str text => exact scan_str text rest
  | num text =>
    obtain ⟨nonempty, all⟩ := Bool.and_eq_true_iff.1 h
    exact scan_num (by simpa using nonempty) all stop
  | punct c => exact scan_punct h rest

theorem scan_spaced {ts : List Token} (h : ∀ t ∈ ts, t.isWritable) :
    Token.scan (ts.flatMap fun t => t.spell ++ [' ']) = .ok ts := by
  induction ts with
  | nil => rw [List.flatMap_nil, Token.scan]
  | cons t ts ih =>
    rw [List.forall_mem_cons] at h
    rw [List.flatMap_cons, List.append_assoc, List.singleton_append,
      scan_spell h.1 (stops_space t _), scan_space, ih h.2]
    rfl

theorem toList_digits (n : Nat) : (digits n).toList = Nat.toDigits 10 n := String.toList_ofList

theorem isDigit_of_mem_digits {n : Nat} {c : Char} (h : c ∈ Nat.toDigits 10 n) : c.isDigit :=
  Nat.isDigit_of_mem_toDigits (by decide) (by decide) h

theorem number_digits (negative : Bool) (n : Nat) :
    number negative (digits n) =
      if negative ∧ n ≤ 0x8000000000000000 then .ok (.int (Int64.ofInt (-n)))
      else if ¬negative ∧ n < 0x8000000000000000 then .ok (.int (Int64.ofInt n))
      else .ok (.float (.ofDecimal negative n 0)) := by
  have noPoint : (Nat.toDigits 10 n).count '.' = 0 := by
    rw [List.count_eq_zero]
    exact fun point => absurd (isDigit_of_mem_digits point) (by decide)
  have allDigits : (Nat.toDigits 10 n).filter Char.isDigit = Nat.toDigits 10 n :=
    List.filter_eq_self.2 fun _ hc => isDigit_of_mem_digits hc
  have value : Nat.ofDigitChars 10 (Nat.toDigits 10 n) 0 = n :=
    Nat.ofDigitChars_toDigits (by decide) (by decide)
  rw [number, toList_digits, noPoint, allDigits, value]
  rfl

theorem atom_intTokens (i : Int64) (rest : List Token) :
    atom (intTokens i ++ rest) = .ok (.int i, rest) := by
  have low : -0x8000000000000000 ≤ i.toInt := i.le_toInt
  have high : i.toInt < 0x8000000000000000 := i.toInt_lt
  by_cases negative : i.toInt < 0
  · have bound : i.toInt.natAbs ≤ 0x8000000000000000 := by omega
    have back : -(i.toInt.natAbs : Int) = i.toInt := by omega
    have read : number true (digits i.toInt.natAbs) = .ok (.int i) := by
      rw [number_digits, if_pos ⟨rfl, bound⟩, back, Int64.ofInt_toInt]
    simp only [intTokens, if_pos negative, List.cons_append, List.nil_append, atom, if_true, read]
    rfl
  · have bound : i.toInt.natAbs < 0x8000000000000000 := by omega
    have back : (i.toInt.natAbs : Int) = i.toInt := by omega
    have read : number false (digits i.toInt.natAbs) = .ok (.int i) := by
      rw [number_digits, if_neg (by simp), if_pos ⟨by simp, bound⟩, back, Int64.ofInt_toInt]
    simp only [intTokens, if_neg negative, List.cons_append, List.nil_append, atom, read]
    rfl

theorem wordValue_of_wellFormed {name : String} (h : (Expr.ident name).isWellFormed) :
    wordValue name = .ident name := by
  simp only [Expr.isWellFormed, valueWords, Bool.and_eq_true, Bool.not_eq_true',
    List.contains_eq_mem, decide_eq_false_iff_not, List.mem_cons, not_or] at h
  obtain ⟨-, notNull, notUndefined, notTrue, notFalse, -⟩ := h
  simp [wordValue, notNull, notUndefined, notTrue, notFalse]

variable {depth : Nat} {ts after rest : List Token} {e : Expr}

theorem members_stop {c : Char} (h : c ≠ '.') :
    members e (.punct c :: rest) = .ok (e, .punct c :: rest) := by
  rw [members]
  · simp [h]
  · simp [h]

theorem head_of_exprWithin (h : exprWithin depth ts = .ok (e, rest)) :
    (∀ c, ts.head? = some (.punct c) → c ∈ ['[', '\x7b', '-']) ∧
      ∀ word ∈ statementWords, ts.head? = some (.ident word) → e.startsStatement := by
  cases depth with
  | zero => cases h
  | succ depth =>
    obtain ⟨operand, after, form, last⟩ := exprWithin_form h
    rw [last.startsStatement]
    cases form with
    | array | object => simp
    | atom form =>
      cases form with
      | number | negative | str => simp
      | @word word =>
        refine ⟨by simp, ?_⟩
        intro name listed head
        have table : ∀ word ∈ statementWords, (wordValue word).startsStatement := by decide
        obtain rfl : word = name := by simpa using head
        exact table word listed

theorem exprWithin_of_atom (h : atom ts = .ok (e, rest)) (deep : 0 < depth) :
    exprWithin depth ts = members e rest := by
  obtain ⟨depth, rfl⟩ := Nat.exists_eq_add_one.2 deep
  have other : ts.head? ≠ some (.punct '[') ∧ ts.head? ≠ some (.punct '\x7b') := by
    cases atom_form h <;> simp
  rw [exprWithin, if_neg other.1, if_neg other.2, h]
  rfl

theorem exprWithin_array {es : List Expr} (h : itemsWithin depth ts = .ok (es, rest)) :
    exprWithin (depth + 1) (.punct '[' :: ts) = members (.array es) rest := by
  simp only [exprWithin, List.head?_cons, if_true, List.tail_cons, h]
  rfl

theorem exprWithin_object {ps : List (String × Expr)}
    (h : propertiesWithin depth ts = .ok (ps, rest)) :
    exprWithin (depth + 1) (.punct '\x7b' :: ts) = members (.object ps) rest := by
  rw [exprWithin, if_neg (by simp)]
  simp only [List.head?_cons, if_true, List.tail_cons, h]
  rfl

theorem listStep_more {α : Type} {close : Char}
    {part : List Token → Except SyntaxError (Parsed α)}
    {again : List Token → Except SyntaxError (Parsed (List α))} {x : α} {xs : List α}
    (notClosed : ts.head? ≠ some (.punct close)) (first : part ts = .ok (x, .punct ',' :: after))
    (others : again after = .ok (xs, rest)) :
    listStep close part again ts = .ok (x :: xs, rest) := by
  rw [listStep, if_neg notClosed, first]
  simp only [Bind.bind, Except.bind, List.head?_cons, if_true, List.tail_cons, others]
  rfl

theorem listStep_last {α : Type} {close : Char}
    {part : List Token → Except SyntaxError (Parsed α)}
    {again : List Token → Except SyntaxError (Parsed (List α))} {x : α}
    (notClosed : ts.head? ≠ some (.punct close)) (noComma : close ≠ ',')
    (first : part ts = .ok (x, .punct close :: rest)) :
    listStep close part again ts = .ok ([x], rest) := by
  rw [listStep, if_neg notClosed, first]
  simp only [Bind.bind, Except.bind, List.head?_cons, Option.some.injEq, Token.punct.injEq, noComma,
    if_false, expectPunct, if_true, List.tail_cons]
  rfl

theorem property_str {value : List Token → Except SyntaxError (Parsed Expr)} {key : String}
    (h : propertyValue value key ts = .ok (e, rest)) :
    property value (.str key :: ts) = .ok ((key, e), rest) := by
  rw [property, propertyKey]
  simp only [Bind.bind, Except.bind, h]
  rfl

theorem eq_of_isShorthand {key : String} (h : isShorthand key e) : e = .ident key := by
  cases e <;> simp_all [isShorthand]

mutual
theorem exprWithin_tokens {e : Expr} (wellFormed : e.isWellFormed)
    (floatFree : e.parts.all (!·.isFloat)) {depth : Nat}
    (deep : 2 * (exprTokens e).length ≤ depth) (rest : List Token) :
    exprWithin depth (exprTokens e ++ rest) = members e rest := by
  match e with
  | .null => exact exprWithin_of_atom rfl (by simp [exprTokens] at deep; omega)
  | .bool b =>
    refine exprWithin_of_atom ?_ (by simp [exprTokens] at deep; omega)
    cases b <;> rfl
  | .int i =>
    refine exprWithin_of_atom (atom_intTokens i rest) ?_
    simp only [exprTokens, intTokens] at deep
    split at deep <;> simp at deep <;> omega
  | .float x => simp [Expr.parts, Expr.isFloat] at floatFree
  | .str s => exact exprWithin_of_atom rfl (by simp [exprTokens] at deep; omega)
  | .array es =>
    simp only [Expr.parts, List.all_cons, Bool.and_eq_true] at floatFree
    simp only [exprTokens, List.length_cons, List.length_append, List.length_nil] at deep
    obtain ⟨depth, rfl⟩ := Nat.exists_eq_add_one.2 (show 0 < depth by omega)
    have items : itemsWithin depth (itemTokens es ++ .punct ']' :: rest) = .ok (es, rest) :=
      itemsWithin_tokens wellFormed floatFree.2 (by omega) rest
    rw [exprTokens, List.cons_append, List.append_assoc]
    exact exprWithin_array items
  | .object ps =>
    simp only [Expr.parts, List.all_cons, Bool.and_eq_true] at floatFree
    simp only [exprTokens, List.length_cons, List.length_append, List.length_nil] at deep
    obtain ⟨depth, rfl⟩ := Nat.exists_eq_add_one.2 (show 0 < depth by omega)
    have properties :
        propertiesWithin depth (propertyTokens ps ++ .punct '\x7d' :: rest) = .ok (ps, rest) :=
      propertiesWithin_tokens wellFormed floatFree.2 (by omega) rest
    rw [exprTokens, List.cons_append, List.append_assoc]
    exact exprWithin_object properties
  | .ident name =>
    refine exprWithin_of_atom ?_ (by simp [exprTokens] at deep; omega)
    simp [exprTokens, atom, wordValue_of_wellFormed wellFormed]
  | .member target key =>
    simp only [Expr.isWellFormed, Bool.and_eq_true] at wellFormed
    simp only [Expr.parts, List.all_cons, Bool.and_eq_true] at floatFree
    simp only [exprTokens, List.length_append] at deep
    rw [exprTokens, List.append_assoc, exprWithin_tokens wellFormed.1 floatFree.2 (by omega)]
    rfl
theorem itemsWithin_tokens {es : List Expr} (wellFormed : itemsWellFormed es)
    (floatFree : (itemParts es).all (!·.isFloat)) {depth : Nat}
    (deep : 2 * (itemTokens es).length < depth) (rest : List Token) :
    itemsWithin depth (itemTokens es ++ .punct ']' :: rest) = .ok (es, rest) := by
  obtain ⟨depth, rfl⟩ := Nat.exists_eq_add_one.2 (show 0 < depth by omega)
  match es with
  | [] => rfl
  | e :: es =>
    simp only [itemsWellFormed, Bool.and_eq_true] at wellFormed
    simp only [itemParts, List.all_append, Bool.and_eq_true] at floatFree
    simp only [itemTokens, List.length_append, List.length_cons] at deep
    have others : itemsWithin depth (itemTokens es ++ .punct ']' :: rest) = .ok (es, rest) :=
      itemsWithin_tokens wellFormed.2 floatFree.2 (by omega) rest
    have first : exprWithin depth (itemTokens (e :: es) ++ .punct ']' :: rest) =
        .ok (e, .punct ',' :: (itemTokens es ++ .punct ']' :: rest)) := by
      rw [itemTokens, List.append_assoc, List.cons_append,
        exprWithin_tokens wellFormed.1 floatFree.1 (by omega), members_stop (by decide)]
    rw [itemsWithin_succ]
    refine listStep_more ?_ first others
    exact fun head => absurd ((head_of_exprWithin first).1 _ head) (by decide)
theorem propertiesWithin_tokens {ps : List (String × Expr)} (wellFormed : propertiesWellFormed ps)
    (floatFree : (propertyParts ps).all (!·.isFloat)) {depth : Nat}
    (deep : 2 * (propertyTokens ps).length < depth) (rest : List Token) :
    propertiesWithin depth (propertyTokens ps ++ .punct '\x7d' :: rest) = .ok (ps, rest) := by
  obtain ⟨depth, rfl⟩ := Nat.exists_eq_add_one.2 (show 0 < depth by omega)
  match ps with
  | [] => rfl
  | (key, e) :: ps =>
    simp only [propertiesWellFormed, Bool.and_eq_true, Bool.or_eq_true] at wellFormed
    simp only [propertyParts, List.all_append, Bool.and_eq_true] at floatFree
    simp only [propertyTokens, List.length_append, List.length_cons] at deep
    have others :
        propertiesWithin depth (propertyTokens ps ++ .punct '\x7d' :: rest) = .ok (ps, rest) :=
      propertiesWithin_tokens wellFormed.2 floatFree.2 (by omega) rest
    rw [propertiesWithin_succ, propertyTokens, List.cons_append, List.append_assoc,
      List.cons_append]
    refine listStep_more (by simp) (property_str ?_) others
    by_cases shorthand : isShorthand key e
    · obtain rfl := eq_of_isShorthand shorthand
      rw [if_pos shorthand, List.nil_append, propertyValue, if_neg (by simp)]
    · rw [if_neg shorthand, List.length_cons] at deep
      rw [if_neg shorthand, propertyValue]
      simp only [List.cons_append, List.head?_cons, if_true, List.tail_cons]
      rw [exprWithin_tokens (wellFormed.1.resolve_left shorthand) floatFree.1 (by omega),
        members_stop (by decide)]
end

theorem expr_tokens {c : Char} (wellFormed : e.isWellFormed)
    (floatFree : e.parts.all (!·.isFloat)) (mark : c ≠ '.') :
    expr (exprTokens e ++ .punct c :: rest) = .ok (e, .punct c :: rest) := by
  have deep : 2 * (exprTokens e).length ≤
      2 * (exprTokens e ++ .punct c :: rest).length + 1 := by
    rw [List.length_append]
    omega
  rw [expr, exprWithin_tokens wellFormed floatFree deep, members_stop mark]

theorem aliases_tokens (pairs : List (String × String)) (deep : pairs.length < depth) :
    aliases depth (aliasTokens pairs ++ .punct '\x7d' :: rest) = .ok (pairs, rest) := by
  induction pairs generalizing depth with
  | nil =>
    obtain ⟨depth, rfl⟩ := Nat.exists_eq_add_one.2 (Nat.zero_lt_of_lt deep)
    rfl
  | cons p pairs ih =>
    obtain ⟨depth, rfl⟩ := Nat.exists_eq_add_one.2 (Nat.zero_lt_of_lt deep)
    have others := ih (Nat.lt_of_succ_lt_succ deep)
    rw [aliases_succ]
    refine listStep_more (by simp [aliasTokens]) ?_ others
    simp only [aliasTokens, List.flatMap_cons, List.cons_append, List.nil_append, nameAndAlias,
      identifier, Bind.bind, Except.bind, List.head?_cons, List.tail_cons, if_true]
    rfl

theorem length_aliasTokens (pairs : List (String × String)) :
    (aliasTokens pairs).length = 4 * pairs.length := by
  induction pairs with
  | nil => rfl
  | cons p pairs ih =>
    simp only [aliasTokens, List.flatMap_cons, List.length_append, List.length_cons,
      List.length_nil] at *
    omega

theorem declaration_tokens (name : String) (exported : Bool) (wellFormed : e.isWellFormed)
    (floatFree : e.parts.all (!·.isFloat)) (rest : List Token) :
    declaration exported
        (.ident "const" :: .ident name :: .punct '=' :: (exprTokens e ++ .punct ';' :: rest)) =
      .ok (.declare name e exported, .punct ';' :: rest) := by
  have value : expr (exprTokens e ++ .punct ';' :: rest) = .ok (e, .punct ';' :: rest) :=
    expr_tokens wellFormed floatFree (by decide)
  simp only [declaration, List.tail_cons, identifier, expectPunct, List.head?_cons, if_true, Bind.bind,
    Except.bind, value]
  rfl

theorem stmt_of_expr (h : expr ts = .ok (e, rest)) (plain : e.startsStatement = false) :
    stmt ts = .ok (.expr e, rest) := by
  have other : ∀ word ∈ statementWords, ts.head? ≠ some (.ident word) := by
    intro word listed head
    rw [(head_of_exprWithin h).2 word listed head] at plain
    cases plain
  have noDeclaration : ¬startsDeclaration ts := by
    intro starts
    obtain ⟨word, declaring, head⟩ := startsDeclaration_eq_true.1 starts
    exact other word (by simp [statementWords, declaring]) head
  rw [stmt, if_neg (other _ (by decide)), if_neg (other _ (by decide)), if_neg noDeclaration, h]
  rfl

theorem stmt_tokens {st : Stmt} (wellFormed : st.isWellFormed)
    (floatFree : st.parts.all (!·.isFloat)) (rest : List Token) :
    stmt (stmtTokens st ++ .punct ';' :: rest) = .ok (st, .punct ';' :: rest) := by
  cases st with
  | declare name e exported =>
    simp only [Stmt.isWellFormed, Bool.and_eq_true] at wellFormed
    have declared := declaration_tokens name exported wellFormed.2 floatFree rest
    cases exported
    · simpa [stmtTokens, stmt, startsDeclaration] using declared
    · simpa [stmtTokens, stmt, exportStmt, startsDeclaration] using declared
  | exportDefault e =>
    have value : expr (exprTokens e ++ .punct ';' :: rest) = .ok (e, .punct ';' :: rest) :=
      expr_tokens wellFormed floatFree (by decide)
    simp only [stmtTokens, stmt, exportStmt, List.cons_append, List.head?_cons, if_true,
      List.tail_cons, value]
    rfl
  | exportList pairs =>
    let after := aliasTokens pairs ++ .punct '\x7d' :: .punct ';' :: rest
    have deep : pairs.length < (Token.punct '\x7b' :: after).length := by
      simp only [after, List.length_cons, List.length_append, length_aliasTokens]
      omega
    have names : aliases (Token.punct '\x7b' :: after).length after = _ := aliases_tokens pairs deep
    simp only [stmtTokens, stmt, exportStmt, List.cons_append, List.append_assoc, List.nil_append,
      List.head?_cons, if_true, List.tail_cons]
    rw [if_neg (by simp), names]
    rfl
  | throw e =>
    have value : expr (exprTokens e ++ .punct ';' :: rest) = .ok (e, .punct ';' :: rest) :=
      expr_tokens wellFormed floatFree (by decide)
    rw [stmtTokens, List.cons_append, stmt, if_neg (by simp)]
    simp only [List.head?_cons, if_true, List.tail_cons, value]
    rfl
  | expr e =>
    simp only [Stmt.isWellFormed, Bool.and_eq_true, Bool.not_eq_true'] at wellFormed
    exact stmt_of_expr (expr_tokens wellFormed.1 floatFree (by decide)) wellFormed.2

theorem map_bindingNames {bs : List Binding} (h : bs.all Binding.isNamed) :
    (bs.map bindingNames).map namedBinding = bs := by
  induction bs with
  | nil => rfl
  | cons b bs ih =>
    rw [List.all_cons, Bool.and_eq_true] at h
    rw [List.map_cons, List.map_cons, ih h.2]
    cases b with
    | named => rfl
    | defaultExport | everything => simp [Binding.isNamed] at h

theorem bindingGroup_tokens {bs : List Binding} (h : isGroup bs) (rest : List Token) :
    bindingGroup (groupTokens bs ++ rest) = .ok (bs, rest) := by
  unfold isGroup at h
  split at h
  case h_1 => rfl
  case h_2 other =>
    let after := aliasTokens (bs.map bindingNames) ++ .punct '\x7d' :: rest
    have tokens : groupTokens bs ++ rest = .punct '\x7b' :: after := by
      rw [groupTokens, List.cons_append, List.append_assoc]
      · rfl
      · exact other
    have deep : (bs.map bindingNames).length < (Token.punct '\x7b' :: after).length := by
      simp only [after, List.length_cons, List.length_append, length_aliasTokens]
      omega
    have names : aliases (Token.punct '\x7b' :: after).length after = _ := aliases_tokens _ deep
    rw [tokens, bindingGroup, if_neg (by simp)]
    simp only [expectPunct, List.head?_cons, if_true, List.tail_cons, Bind.bind, Except.bind, names,
      map_bindingNames h]
    rfl

theorem head_groupTokens (bs : List Binding) (rest : List Token) :
    ∃ c after, groupTokens bs ++ rest = .punct c :: after := by
  unfold groupTokens
  split
  · exact ⟨_, _, rfl⟩
  · exact ⟨_, _, rfl⟩

theorem bindings_tokens {bs : List Binding} (h : isBindingList bs) (rest : List Token) :
    bindings (bindingTokens bs ++ .ident "from" :: rest) = .ok (bs, .ident "from" :: rest) := by
  unfold bindingTokens
  split
  case h_1 name => simp [bindings]
  case h_2 name bs nonempty =>
    have group : bindingGroup (groupTokens bs ++ .ident "from" :: rest) =
        .ok (bs, .ident "from" :: rest) := bindingGroup_tokens h _
    simp only [List.cons_append, bindings, List.head?_cons, if_true, List.tail_cons, group]
    rfl
  case h_3 noDefault =>
    have isGroup : isGroup bs := by
      unfold isBindingList at h
      split at h
      · exact absurd rfl (noDefault _ _)
      · exact h
    have group := bindingGroup_tokens isGroup (.ident "from" :: rest)
    obtain ⟨c, after, tokens⟩ := head_groupTokens bs (.ident "from" :: rest)
    rw [tokens] at group ⊢
    exact group

theorem importDecl_of_bindings {specifier : String} {bs : List Binding}
    (h : bindings ts = .ok (bs, .ident "from" :: .str specifier :: rest)) :
    importDecl ts = .ok (⟨specifier, bs⟩, rest) := by
  have noText : ∀ text others, ts ≠ .str text :: others := by
    rintro text others rfl
    cases h
  rw [importDecl]
  · simp only [h, Bind.bind, Except.bind, expectWord, List.head?_cons, if_true, List.tail_cons,
      stringLiteral]
    rfl
  · exact noText

theorem importDecl_tokens {i : Import} (h : i.isWellFormed) (rest : List Token) :
    importDecl (importTokens i ++ rest) = .ok (i, rest) := by
  rw [Import.isWellFormed, Bool.and_eq_true] at h
  unfold importTokens
  split
  case h_1 none =>
    rw [List.singleton_append, importDecl, ← none]
  case h_2 =>
    rw [List.append_assoc]
    exact importDecl_of_bindings (bindings_tokens h.1 _)

theorem head_of_stmt {st : Stmt} (h : stmt ts = .ok (st, rest)) (wellFormed : st.isWellFormed) :
    ts.head? ≠ some (.punct ';') ∧ ts.head? ≠ some (.ident "import") := by
  cases stmt_form h with
  | exportDefault | exportList | exportDeclare | throw => simp
  | declare form =>
    cases form with
    | @intro _ _ word _ _ declaring =>
      refine ⟨by simp, ?_⟩
      rintro ⟨⟩
      exact absurd declaring (by decide)
  | expr value_ok =>
    simp only [Stmt.isWellFormed, Bool.and_eq_true, Bool.not_eq_true'] at wellFormed
    obtain ⟨marks, words⟩ := head_of_exprWithin value_ok
    constructor
    · exact fun head => absurd (marks _ head) (by decide)
    · intro head
      rw [words _ (by decide) head] at wellFormed
      cases wellFormed.2

variable {s : Script}

theorem scriptWithin_semicolon :
    scriptWithin (depth + 1) (.punct ';' :: ts) = scriptWithin depth ts := by
  rw [scriptWithin, List.head?_cons, if_pos rfl, List.tail_cons]
  simp

theorem scriptWithin_import {i : Import} (h : importDecl ts = .ok (i, rest))
    (others : scriptWithin depth rest = .ok s) :
    scriptWithin (depth + 1) (.ident "import" :: ts) =
      .ok { s with imports := i :: s.imports } := by
  rw [scriptWithin, if_neg (by simp)]
  · simp only [List.head?_cons, if_true, List.tail_cons, h, Bind.bind, Except.bind, others]
    rfl
  · simp

theorem scriptWithin_of_stmt {st : Stmt} (noMark : ts.head? ≠ some (.punct ';'))
    (noImport : ts.head? ≠ some (.ident "import")) (h : stmt ts = .ok (st, rest))
    (others : scriptWithin depth rest = .ok s) :
    scriptWithin (depth + 1) ts = .ok { s with body := st :: s.body } := by
  rw [scriptWithin, if_neg noMark, if_neg noImport, h]
  · simp only [Bind.bind, Except.bind, others]
    rfl
  · rintro rfl
    cases h

theorem scriptWithin_stmt {st : Stmt} (h : stmt ts = .ok (st, rest)) (wellFormed : st.isWellFormed)
    (others : scriptWithin depth rest = .ok s) :
    scriptWithin (depth + 1) ts = .ok { s with body := st :: s.body } := by
  obtain ⟨noMark, noImport⟩ := head_of_stmt h wellFormed
  exact scriptWithin_of_stmt noMark noImport h others

theorem scriptWithin_body {body : List Stmt}
    (h : ∀ st ∈ body, st.isWellFormed ∧ st.parts.all (!·.isFloat))
    (deep : 2 * body.length ≤ depth) :
    scriptWithin depth (body.flatMap stmtLine) = .ok { body := body } := by
  induction body generalizing depth with
  | nil => rw [List.flatMap_nil, scriptWithin]
  | cons st body ih =>
    obtain ⟨⟨wellFormed, floatFree⟩, h⟩ := List.forall_mem_cons.1 h
    obtain ⟨depth, rfl⟩ : ∃ less, depth = less + 2 := ⟨depth - 2, by simp at deep; omega⟩
    have others : scriptWithin depth (body.flatMap stmtLine) = .ok { body := body } :=
      ih h (by simp at deep; omega)
    rw [← scriptWithin_semicolon] at others
    rw [List.flatMap_cons, stmtLine, List.append_assoc]
    exact scriptWithin_stmt (stmt_tokens wellFormed floatFree _) wellFormed others

theorem scriptWithin_imports {imports : List Import} (h : ∀ i ∈ imports, i.isWellFormed)
    (deep : 2 * imports.length ≤ depth) {after : List Token}
    (others : scriptWithin (depth - 2 * imports.length) after = .ok s) :
    scriptWithin depth (imports.flatMap importLine ++ after) =
      .ok { s with imports := imports ++ s.imports } := by
  induction imports generalizing depth with
  | nil => exact others
  | cons i imports ih =>
    obtain ⟨wellFormed, h⟩ := List.forall_mem_cons.1 h
    obtain ⟨depth, rfl⟩ : ∃ less, depth = less + 2 := ⟨depth - 2, by simp at deep; omega⟩
    have same : depth + 2 - 2 * (i :: imports).length = depth - 2 * imports.length := by
      rw [List.length_cons]
      omega
    rw [same] at others
    have tail := ih h (by simp at deep; omega) others
    rw [← scriptWithin_semicolon] at tail
    rw [List.flatMap_cons, importLine, List.append_assoc, List.cons_append, List.append_assoc]
    exact scriptWithin_import (importDecl_tokens wellFormed _) tail

theorem two_le_length_stmtLine {st : Stmt} (wellFormed : st.isWellFormed)
    (floatFree : st.parts.all (!·.isFloat)) : 2 ≤ (stmtLine st).length := by
  have read := stmt_tokens wellFormed floatFree []
  cases tokens : stmtTokens st with
  | nil =>
    rw [tokens] at read
    exact absurd rfl (head_of_stmt read wellFormed).1
  | cons t ts => simp [stmtLine, tokens]

theorem two_mul_length_le_flatMap {α : Type} {line : α → List Token} {xs : List α}
    (h : ∀ x ∈ xs, 2 ≤ (line x).length) : 2 * xs.length ≤ (xs.flatMap line).length := by
  induction xs with
  | nil => exact Nat.le_refl 0
  | cons x xs ih =>
    obtain ⟨first, h⟩ := List.forall_mem_cons.1 h
    have others := ih h
    rw [List.flatMap_cons, List.length_append, List.length_cons]
    omega

theorem ofTokens_scriptTokens (wellFormed : s.isWellFormed) (floatFree : s.isFloatFree) :
    ofTokens (scriptTokens s) = .ok s := by
  rw [Script.isWellFormed, Bool.and_eq_true, List.all_eq_true, List.all_eq_true] at wellFormed
  rw [Script.isFloatFree, List.all_flatMap, List.all_eq_true] at floatFree
  obtain ⟨imports, body⟩ := wellFormed
  have importRoom : 2 * s.imports.length ≤ (s.imports.flatMap importLine).length :=
    two_mul_length_le_flatMap fun i _ => by simp [importLine]
  have bodyRoom : 2 * s.body.length ≤ (s.body.flatMap stmtLine).length :=
    two_mul_length_le_flatMap fun st hst => two_le_length_stmtLine (body st hst) (floatFree st hst)
  have stmts : scriptWithin ((scriptTokens s).length - 2 * s.imports.length)
      (s.body.flatMap stmtLine) = .ok { body := s.body } := by
    refine scriptWithin_body (fun st hst => ⟨body st hst, floatFree st hst⟩) ?_
    rw [scriptTokens, List.length_append]
    omega
  have whole := scriptWithin_imports imports
    (by rw [scriptTokens, List.length_append]; omega) stmts
  rwa [List.append_nil] at whole

theorem writable_digits (n : Nat) : Token.isWritable (.num (digits n)) := by
  have nonempty : Nat.toDigits 10 n ≠ [] := Nat.toDigits_ne_nil
  simpa [Token.isWritable, toList_digits, nonempty] using fun c => isDigit_of_mem_digits

theorem writable_intTokens (i : Int64) : (intTokens i).all Token.isWritable := by
  have digits := writable_digits i.toInt.natAbs
  unfold intTokens
  split
  · rw [List.all_cons, List.all_cons, digits]
    rfl
  · rw [List.all_cons, digits]
    rfl

mutual
theorem writable_exprTokens {e : Expr} (wellFormed : e.isWellFormed) :
    (exprTokens e).all Token.isWritable := by
  match e with
  | .null => decide
  | .bool b => cases b <;> decide
  | .int i => exact writable_intTokens i
  | .float x => rfl
  | .str s => rfl
  | .array es =>
    have items := writable_itemTokens wellFormed
    simp only [exprTokens, List.all_cons, List.all_append, items]
    decide
  | .object ps =>
    have properties := writable_propertyTokens wellFormed
    simp only [exprTokens, List.all_cons, List.all_append, properties]
    decide
  | .ident name =>
    simp only [Expr.isWellFormed, Bool.and_eq_true] at wellFormed
    simp [exprTokens, Token.isWritable, wellFormed.1]
  | .member target key =>
    simp only [Expr.isWellFormed, Bool.and_eq_true] at wellFormed
    have operand := writable_exprTokens wellFormed.1
    simp only [exprTokens, List.all_append, List.all_cons, operand, Token.isWritable, wellFormed.2]
    decide
theorem writable_itemTokens {es : List Expr} (wellFormed : itemsWellFormed es) :
    (itemTokens es).all Token.isWritable := by
  match es with
  | [] => rfl
  | e :: es =>
    simp only [itemsWellFormed, Bool.and_eq_true] at wellFormed
    have first := writable_exprTokens wellFormed.1
    have others := writable_itemTokens wellFormed.2
    simp only [itemTokens, List.all_append, List.all_cons, first, others]
    decide
theorem writable_propertyTokens {ps : List (String × Expr)} (wellFormed : propertiesWellFormed ps) :
    (propertyTokens ps).all Token.isWritable := by
  match ps with
  | [] => rfl
  | (key, e) :: ps =>
    simp only [propertiesWellFormed, Bool.and_eq_true, Bool.or_eq_true] at wellFormed
    have others := writable_propertyTokens wellFormed.2
    by_cases shorthand : isShorthand key e
    · simp only [propertyTokens, if_pos shorthand, List.all_append, List.all_cons, List.all_nil,
        others]
      rfl
    · have value := writable_exprTokens (wellFormed.1.resolve_left shorthand)
      simp only [propertyTokens, if_neg shorthand, List.all_append, List.all_cons, value, others]
      rfl
end

theorem writable_aliasTokens {pairs : List (String × String)}
    (h : ∀ p ∈ pairs, isName p.1 ∧ isName p.2) : (aliasTokens pairs).all Token.isWritable := by
  rw [aliasTokens, List.all_flatMap, List.all_eq_true]
  intro p hp
  simp only [List.all_cons, Token.isWritable, h p hp]
  decide

theorem writable_stmtTokens {st : Stmt} (wellFormed : st.isWellFormed) :
    (stmtTokens st).all Token.isWritable := by
  cases st with
  | declare name e exported =>
    simp only [Stmt.isWellFormed, Bool.and_eq_true] at wellFormed
    have value := writable_exprTokens wellFormed.2
    simp only [stmtTokens, List.all_append, List.all_cons, value, Token.isWritable, wellFormed.1]
    cases exported <;> decide
  | exportDefault e | throw e =>
    have value := writable_exprTokens wellFormed
    simp only [stmtTokens, List.all_cons, value]
    decide
  | exportList pairs =>
    have named : ∀ p ∈ pairs, isName p.1 ∧ isName p.2 := by
      simpa [Stmt.isWellFormed] using wellFormed
    have names := writable_aliasTokens named
    simp only [stmtTokens, List.all_cons, List.all_append, names]
    decide
  | expr e =>
    simp only [Stmt.isWellFormed, Bool.and_eq_true] at wellFormed
    exact writable_exprTokens wellFormed.1

theorem writable_groupTokens {bs : List Binding} (names : bs.all Binding.hasNames) :
    (groupTokens bs).all Token.isWritable := by
  unfold groupTokens
  split
  case h_1 name =>
    simp only [List.all_cons, List.all_nil, Binding.hasNames, Bool.and_true] at names
    simp only [List.all_cons, Token.isWritable, names]
    decide
  case h_2 =>
    have pairs : ∀ p ∈ bs.map bindingNames, isName p.1 ∧ isName p.2 := by
      intro p hp
      obtain ⟨b, hb, rfl⟩ := List.mem_map.1 hp
      have named := List.all_eq_true.1 names b hb
      cases b <;> simp_all [Binding.hasNames, bindingNames]
    simp only [List.all_cons, List.all_append, writable_aliasTokens pairs]
    decide

theorem writable_bindingTokens {bs : List Binding} (names : bs.all Binding.hasNames) :
    (bindingTokens bs).all Token.isWritable := by
  unfold bindingTokens
  split
  case h_1 name => simpa [Binding.hasNames, Token.isWritable] using names
  case h_2 name bs _ =>
    rw [List.all_cons, Bool.and_eq_true] at names
    have group := writable_groupTokens names.2
    have name : isName name := names.1
    simp only [List.all_cons, Token.isWritable, name, group]
    decide
  case h_3 => exact writable_groupTokens names

theorem writable_importTokens {i : Import} (wellFormed : i.isWellFormed) :
    (importTokens i).all Token.isWritable := by
  simp only [Import.isWellFormed, Bool.and_eq_true] at wellFormed
  have bound := writable_bindingTokens wellFormed.2
  unfold importTokens
  split
  · rfl
  · rw [List.all_append, bound]
    rfl

theorem writable_scriptTokens {s : Script} (wellFormed : s.isWellFormed) :
    (scriptTokens s).all Token.isWritable := by
  simp only [Script.isWellFormed, Bool.and_eq_true, List.all_eq_true] at wellFormed
  obtain ⟨imports, body⟩ := wellFormed
  rw [scriptTokens, List.all_append, List.all_flatMap, List.all_flatMap, Bool.and_eq_true,
    List.all_eq_true, List.all_eq_true]
  constructor
  · intro i hi
    simp only [importLine, List.all_cons, List.all_append, writable_importTokens (imports i hi)]
    decide
  · intro st hst
    simp only [stmtLine, List.all_append, writable_stmtTokens (body st hst)]
    decide

/-- The parser accepts exactly the well-formed scripts: everything it reads is well-formed, and
every well-formed script without doubles is read from its own text. -/
theorem parse_exact :
    (∀ source s, parse source = .ok s → s.isWellFormed) ∧
      ∀ s : Script, s.isWellFormed → s.isFloatFree → parse (render s) = .ok s := by
  constructor
  · intro source s h
    exact wellFormed_of_parse h
  · intro s wellFormed floatFree
    have scanned : Token.scan (render s).toList = .ok (scriptTokens s) := by
      rw [render, String.toList_ofList]
      exact scan_spaced (List.all_eq_true.1 (writable_scriptTokens wellFormed))
    rw [parse, scanned]
    exact ofTokens_scriptTokens wellFormed floatFree

def wordy : Script where
  imports := [⟨"a\"b", [.defaultExport "from", .named "as" "import"]⟩, ⟨"c", [.everything "_"]⟩]
  body := [
    .declare "let" (.object [("a b", .ident "a b"), ("x", .array [.int (-1), .bool true])]) true,
    .exportList [("const", "default")],
    .expr (.member (.member (.str "\\\n") "null") "throw")]

theorem parse_wordy :
    wordy.isWellFormed ∧ wordy.isFloatFree ∧ parse (render wordy) = .ok wordy ∧
      render wordy =
        "import from , \x7b as as import , \x7d from \"a\\\"b\" ; import * as _ from \"c\" ; " ++
        "export const let = \x7b \"a b\" , \"x\" : [ - 1 , true , ] , \x7d ; " ++
        "export \x7b const as default , \x7d ; \"\\\\\\n\" . null . throw ; " := by
  have floatFree : wordy.isFloatFree := by decide
  have read := parse_exact.2 wordy (by decide) floatFree
  exact ⟨parse_exact.1 _ wordy read, floatFree, read, by decide +kernel⟩

end CodeCache.Script
