import CodeCache.Proofs.Productions

/-! # Well-formed scripts

Which scripts a source text can denote. Names are word tokens, the words of the literals never stand
for a name of a value, a statement that is an expression does not begin with a word that begins
another statement, and no number is the datum that is not one. A property written without a value
names it by its key, whatever text the key is. Everything the parser reads obeys these rules. -/

namespace CodeCache

open Script (declaringWords)

def isName (s : String) : Bool :=
  match s.toList with
  | [] => false
  | c :: cs => Script.Token.isWordStart c && cs.all Script.Token.isWordPart

def valueWords : List String := ["null", "undefined", "true", "false"]

def statementWords : List String := "import" :: "export" :: "throw" :: declaringWords

/-- Whether a property of this key and value can be written as the key alone. -/
def isShorthand (key : String) : Expr → Bool
  | .ident name => name == key
  | _ => false

mutual
def Expr.isWellFormed : Expr → Bool
  | .null | .bool _ | .int _ | .str _ => true
  | .float x => !x.isNaN
  | .array es => itemsWellFormed es
  | .object ps => propertiesWellFormed ps
  | .ident name => isName name && !valueWords.contains name
  | .member target key => target.isWellFormed && isName key
def itemsWellFormed : List Expr → Bool
  | [] => true
  | e :: es => e.isWellFormed && itemsWellFormed es
def propertiesWellFormed : List (String × Expr) → Bool
  | [] => true
  | (key, e) :: ps => (isShorthand key e || e.isWellFormed) && propertiesWellFormed ps
end

/-- Whether the leftmost operand is a word that begins an import or another statement. -/
def Expr.startsStatement : Expr → Bool
  | .ident name => statementWords.contains name
  | .member target _ => target.startsStatement
  | _ => false

def Stmt.isWellFormed : Stmt → Bool
  | .declare name init _ => isName name && init.isWellFormed
  | .exportDefault e | .throw e => e.isWellFormed
  | .exportList pairs => pairs.all fun p => isName p.1 && isName p.2
  | .expr e => e.isWellFormed && !e.startsStatement

def Binding.isNamed : Binding → Bool
  | .named _ _ => true
  | _ => false

def Binding.hasNames : Binding → Bool
  | .defaultExport name | .everything name => isName name
  | .named imported name => isName imported && isName name

def isGroup : List Binding → Bool
  | [.everything _] => true
  | bs => bs.all Binding.isNamed

def isBindingList : List Binding → Bool
  | .defaultExport _ :: bs => isGroup bs
  | bs => isGroup bs

def Import.isWellFormed (i : Import) : Bool :=
  isBindingList i.bindings && i.bindings.all Binding.hasNames

def Script.isWellFormed (s : Script) : Bool :=
  s.imports.all Import.isWellFormed && s.body.all Stmt.isWellFormed

theorem itemsWellFormed_eq_true {es : List Expr} :
    itemsWellFormed es = true ↔ ∀ e ∈ es, e.isWellFormed := by
  induction es with
  | nil => simp [itemsWellFormed]
  | cons e es ih => simp [itemsWellFormed, ih]

theorem propertiesWellFormed_eq_true {ps : List (String × Expr)} :
    propertiesWellFormed ps = true ↔ ∀ p ∈ ps, isShorthand p.1 p.2 ∨ p.2.isWellFormed := by
  induction ps with
  | nil => simp [propertiesWellFormed]
  | cons p ps ih => simp [propertiesWellFormed, ih]

mutual
def Expr.parts : Expr → List Expr
  | .array es => .array es :: itemParts es
  | .object ps => .object ps :: propertyParts ps
  | .member target key => .member target key :: target.parts
  | e => [e]
def itemParts : List Expr → List Expr
  | [] => []
  | e :: es => e.parts ++ itemParts es
def propertyParts : List (String × Expr) → List Expr
  | [] => []
  | (_, e) :: ps => e.parts ++ propertyParts ps
end

def Stmt.parts : Stmt → List Expr
  | .declare _ e _ | .exportDefault e | .throw e | .expr e => e.parts
  | .exportList _ => []

def Expr.isFloat : Expr → Bool
  | .float _ => true
  | _ => false

def Script.isFloatFree (s : Script) : Bool := (s.body.flatMap Stmt.parts).all (!·.isFloat)

theorem isNaN_ofQuotient (negative : Bool) (num den : Nat) :
    (Number.Binary64.ofQuotient negative num den).isNaN = false := by
  have finite (sign magnitude : Nat) (hs : sign = 0 ∨ sign = 0x8000000000000000)
      (hm : magnitude ≤ 2047 * 0x10000000000000) :
      Number.Binary64.isNaN ⟨UInt64.ofNat (sign + magnitude)⟩ = false := by
    have word : (UInt64.ofNat (sign + magnitude)).toNat = sign + magnitude := by
      rw [UInt64.toNat_ofNat']
      omega
    simp only [Number.Binary64.isNaN, Number.Binary64.exponentField, Number.Binary64.fractionField,
      Number.Binary64.exponentUnit, word, Bool.and_eq_false_iff, beq_eq_false_iff_ne,
      bne_eq_false_iff_eq]
    omega
  rw [Number.Binary64.ofQuotient]
  refine finite _ _ ?_ ?_
  · cases negative
    · exact .inl rfl
    · exact .inr rfl
  · split
    · exact Nat.zero_le _
    · exact Nat.min_le_left _ _

namespace Script

variable {α : Type} {ts rest : List Token} {depth : Nat}

theorem number_wellFormed {negative : Bool} {text : String} {e : Expr}
    (h : number negative text = .ok e) : e.isWellFormed ∧ e.startsStatement = false := by
  rcases number_eq_ok h with ⟨i, rfl⟩ | ⟨digits, places, rfl⟩
  · exact ⟨rfl, rfl⟩
  · refine ⟨?_, rfl⟩
    rw [Expr.isWellFormed, Number.Binary64.ofDecimal, isNaN_ofQuotient]
    rfl

def Lexical (ts : List Token) : Prop := ∀ name, .ident name ∈ ts → isName name

@[simp] theorem lexical_ident {name : String} :
    Lexical (.ident name :: ts) ↔ isName name ∧ Lexical ts := by
  simp [Lexical]

@[simp] theorem lexical_str {text : String} : Lexical (.str text :: ts) ↔ Lexical ts := by
  simp [Lexical]

@[simp] theorem lexical_num {text : String} : Lexical (.num text :: ts) ↔ Lexical ts := by
  simp [Lexical]

@[simp] theorem lexical_punct {c : Char} : Lexical (.punct c :: ts) ↔ Lexical ts := by
  simp [Lexical]

theorem lexical_scan {cs : List Char} (h : Token.scan cs = .ok ts) : Lexical ts := by
  fun_induction Token.scan cs generalizing ts with
  | case1 =>
    cases h
    simp [Lexical]
  | case2 _ _ _ ih => exact ih h
  | case3 _ _ _ _ ih => exact ih h
  | case4 => cases h
  | case5 _ _ _ _ _ _ _ ih => exact ih h
  | case6 => cases h
  | case7 _ _ _ _ _ _ _ _ _ ih =>
    obtain ⟨us, hu, rfl⟩ := map_eq_ok.1 h
    simpa using ih hu
  | case8 _ _ _ _ _ _ _ ih =>
    obtain ⟨us, hu, rfl⟩ := map_eq_ok.1 h
    simpa using ih hu
  | case9 c rest _ _ _ _ _ start ih =>
    obtain ⟨us, hu, rfl⟩ := map_eq_ok.1 h
    refine lexical_ident.2 ⟨?_, ih hu⟩
    simp [isName, start]
  | case10 _ _ _ _ _ _ _ _ _ ih =>
    obtain ⟨us, hu, rfl⟩ := map_eq_ok.1 h
    simpa using ih hu
  | case11 => cases h

/-- What a production reads from a lexical list of tokens has a property, and the remaining tokens
are lexical again. -/
def Gives (production : List Token → Except SyntaxError (Parsed α)) (good : α → Prop) : Prop :=
  ∀ {ts x rest}, production ts = .ok (x, rest) → Lexical ts → good x ∧ Lexical rest

theorem ListForm.gives {good : α → Prop} {close : Char}
    {part : List Token → Except SyntaxError (Parsed α)}
    {again : List Token → Except SyntaxError (Parsed (List α))} {xs : List α}
    (form : ListForm close part again ts xs rest) (lexical : Lexical ts)
    (gives_part : Gives part good) (gives_again : Gives again fun xs => ∀ x ∈ xs, good x) :
    (∀ x ∈ xs, good x) ∧ Lexical rest := by
  cases form with
  | done => simpa using lexical
  | last part_ok =>
    have first := gives_part part_ok lexical
    simpa using first
  | more part_ok again_ok =>
    obtain ⟨first, lexical⟩ := gives_part part_ok lexical
    obtain ⟨others, lexical⟩ := gives_again again_ok (lexical_punct.1 lexical)
    exact ⟨List.forall_mem_cons.2 ⟨first, others⟩, lexical⟩

theorem gives_nameAndAlias : Gives nameAndAlias fun p => isName p.1 ∧ isName p.2 := by
  intro ts p rest h lexical
  cases nameAndAlias_form h with
  | alone => simpa using lexical
  | renamed => simp_all

theorem gives_aliases (depth : Nat) :
    Gives (aliases depth) fun pairs => ∀ p ∈ pairs, isName p.1 ∧ isName p.2 := by
  induction depth with
  | zero => intro ts pairs rest h; cases h
  | succ depth ih =>
    intro ts pairs rest h lexical
    exact (aliases_form h).gives lexical gives_nameAndAlias ih

theorem wordValue_wellFormed {word : String} (name : isName word) :
    (wordValue word).isWellFormed := by
  unfold wordValue
  split
  · rfl
  split
  · rfl
  split
  · rfl
  · simp_all [Expr.isWellFormed, valueWords]

theorem AtomForm.wellFormed {e : Expr} (form : AtomForm ts e rest) (lexical : Lexical ts) :
    e.isWellFormed ∧ Lexical rest := by
  cases form with
  | number number_ok => exact ⟨(number_wellFormed number_ok).1, lexical_num.1 lexical⟩
  | negative number_ok =>
    exact ⟨(number_wellFormed number_ok).1, lexical_num.1 (lexical_punct.1 lexical)⟩
  | str => exact ⟨rfl, lexical_str.1 lexical⟩
  | word =>
    obtain ⟨name, lexical⟩ := lexical_ident.1 lexical
    exact ⟨wordValue_wellFormed name, lexical⟩

theorem MembersForm.wellFormed {target e : Expr} (form : MembersForm target ts e rest)
    (lexical : Lexical ts) (wellFormed : target.isWellFormed) : e.isWellFormed ∧ Lexical rest := by
  induction form with
  | done => exact ⟨wellFormed, lexical⟩
  | key _ ih =>
    obtain ⟨key, lexical⟩ := lexical_ident.1 (lexical_punct.1 lexical)
    refine ih lexical ?_
    simp [Expr.isWellFormed, wellFormed, key]

theorem gives_property {value : List Token → Except SyntaxError (Parsed Expr)}
    (gives_value : Gives value fun e => e.isWellFormed) :
    Gives (property value) fun p => isShorthand p.1 p.2 ∨ p.2.isWellFormed := by
  have gives_key : Gives propertyKey fun _ => True := by
    intro ts key rest h lexical
    rcases propertyKey_eq_ok.1 h with rfl | rfl <;> simp_all
  intro ts p rest h lexical
  cases property_form h with
  | shorthand key_ok => exact ⟨.inl (by simp [isShorthand]), (gives_key key_ok lexical).2⟩
  | full key_ok value_ok =>
    have lexical := lexical_punct.1 (gives_key key_ok lexical).2
    exact ⟨.inr (gives_value value_ok lexical).1, (gives_value value_ok lexical).2⟩

/-- By induction on the bound, as in the grammar: an expression has items and properties in it, and
these have expressions in them. -/
theorem gives_nested (depth : Nat) :
    (Gives (exprWithin depth) fun e => e.isWellFormed) ∧
      (Gives (itemsWithin depth) fun es => ∀ e ∈ es, e.isWellFormed) ∧
      Gives (propertiesWithin depth) fun ps => ∀ p ∈ ps,
        isShorthand p.1 p.2 ∨ p.2.isWellFormed := by
  induction depth with
  | zero =>
    refine ⟨?_, ?_, ?_⟩
    · intro ts e rest h; cases h
    · intro ts es rest h; cases h
    · intro ts ps rest h; cases h
  | succ depth ih =>
    obtain ⟨gives_expr, gives_items, gives_properties⟩ := ih
    refine ⟨?_, ?_, ?_⟩
    · intro ts e rest h lexical
      obtain ⟨operand, after, form, last⟩ := exprWithin_form h
      cases form with
      | array items_ok =>
        obtain ⟨items, lexical⟩ := gives_items items_ok (lexical_punct.1 lexical)
        exact last.wellFormed lexical (itemsWellFormed_eq_true.2 items)
      | object properties_ok =>
        obtain ⟨properties, lexical⟩ := gives_properties properties_ok (lexical_punct.1 lexical)
        exact last.wellFormed lexical (propertiesWellFormed_eq_true.2 properties)
      | atom form =>
        obtain ⟨wellFormed, lexical⟩ := form.wellFormed lexical
        exact last.wellFormed lexical wellFormed
    · intro ts es rest h lexical
      exact (itemsWithin_form h).gives lexical gives_expr gives_items
    · intro ts ps rest h lexical
      exact (propertiesWithin_form h).gives lexical (gives_property gives_expr) gives_properties

theorem gives_expr : Gives expr fun e => e.isWellFormed := (gives_nested _).1

theorem MembersForm.startsStatement {target e : Expr} (form : MembersForm target ts e rest) :
    e.startsStatement = target.startsStatement := by
  induction form with
  | done => rfl
  | key _ ih => exact ih

/-- An expression whose leftmost operand begins a statement has that word as its first token. -/
theorem head_of_startsStatement {e : Expr} (h : expr ts = .ok (e, rest))
    (starts : e.startsStatement) : ∃ word ∈ statementWords, ts.head? = some (.ident word) := by
  obtain ⟨operand, after, form, last⟩ := exprWithin_form h
  rw [last.startsStatement] at starts
  cases form with
  | array => cases starts
  | object => cases starts
  | atom form =>
    cases form with
    | number number_ok => simp [(number_wellFormed number_ok).2] at starts
    | negative number_ok => simp [(number_wellFormed number_ok).2] at starts
    | str => cases starts
    | @word word =>
      refine ⟨word, ?_, rfl⟩
      unfold wordValue at starts
      split at starts
      · cases starts
      split at starts
      · cases starts
      split at starts
      · cases starts
      · simpa [Expr.startsStatement] using starts

theorem DeclarationForm.wellFormed {name : String} {e : Expr}
    (form : DeclarationForm ts name e rest) (lexical : Lexical ts) (exported : Bool) :
    (Stmt.declare name e exported).isWellFormed ∧ Lexical rest := by
  cases form with
  | intro declaring value_ok =>
    obtain ⟨_, name, lexical⟩ := by simpa using lexical
    obtain ⟨value, lexical⟩ := gives_expr value_ok lexical
    exact ⟨by simp [Stmt.isWellFormed, name, value], lexical⟩

theorem StmtForm.wellFormed {st : Stmt} (form : StmtForm ts st rest) (lexical : Lexical ts)
    (noImport : ts.head? ≠ some (.ident "import")) : st.isWellFormed ∧ Lexical rest := by
  cases form with
  | exportDefault value_ok => exact gives_expr value_ok (by simp_all)
  | exportList names_ok =>
    obtain ⟨names, lexical⟩ := gives_aliases _ names_ok (by simp_all)
    exact ⟨by simpa [Stmt.isWellFormed] using names, lexical⟩
  | exportDeclare form => exact form.wellFormed (lexical_ident.1 lexical).2 true
  | throw value_ok => exact gives_expr value_ok (lexical_ident.1 lexical).2
  | declare form => exact form.wellFormed lexical false
  | @expr _ _ e value_ok plain =>
    obtain ⟨value, lexical⟩ := gives_expr value_ok lexical
    refine ⟨?_, lexical⟩
    by_cases starts : e.startsStatement
    · obtain ⟨word, listed, head⟩ := head_of_startsStatement value_ok starts
      rcases List.mem_cons.1 listed with rfl | listed
      · exact absurd head noImport
      · exact absurd head (plain word listed)
    · simp [Stmt.isWellFormed, value, starts]

theorem GroupForm.wellFormed {bs : List Binding} (form : GroupForm ts bs rest)
    (lexical : Lexical ts) : isGroup bs ∧ bs.all Binding.hasNames ∧ Lexical rest := by
  cases form with
  | everything => simp_all [isGroup, Binding.hasNames]
  | @named _ _ pairs _ names_ok =>
    obtain ⟨names, lexical⟩ := gives_aliases _ names_ok (lexical_punct.1 lexical)
    refine ⟨?_, ?_, lexical⟩
    · cases pairs <;> simp [isGroup, namedBinding, Binding.isNamed]
    · simpa [namedBinding, Binding.hasNames] using names

theorem isBindingList_of_isGroup {bs : List Binding} (h : isGroup bs) : isBindingList bs := by
  rcases bs with _ | ⟨_ | _ | _, bs⟩
  · rfl
  · simp [isGroup, Binding.isNamed] at h
  · exact h
  · exact h

theorem BindingsForm.wellFormed {bs : List Binding} (form : BindingsForm ts bs rest)
    (lexical : Lexical ts) : isBindingList bs ∧ bs.all Binding.hasNames ∧ Lexical rest := by
  cases form with
  | alone => simp_all [isBindingList, isGroup, Binding.hasNames]
  | both form =>
    obtain ⟨name, lexical⟩ := lexical_ident.1 lexical
    obtain ⟨group, names, lexical⟩ := form.wellFormed (lexical_punct.1 lexical)
    exact ⟨group, by simp_all [Binding.hasNames], lexical⟩
  | group form =>
    obtain ⟨group, names, lexical⟩ := form.wellFormed lexical
    exact ⟨isBindingList_of_isGroup group, names, lexical⟩

theorem ImportForm.wellFormed {i : Import} (form : ImportForm ts i rest) (lexical : Lexical ts) :
    i.isWellFormed ∧ Lexical rest := by
  cases form with
  | bare => exact ⟨rfl, lexical_str.1 lexical⟩
  | binding form =>
    obtain ⟨shape, names, lexical⟩ := form.wellFormed lexical
    exact ⟨by simp [Import.isWellFormed, shape, names], by simp_all⟩

theorem ScriptForm.wellFormed {s : Script} (form : ScriptForm ts s) (lexical : Lexical ts) :
    s.isWellFormed := by
  induction form with
  | done => rfl
  | separator _ ih => exact ih (lexical_punct.1 lexical)
  | importDecl first _ ih =>
    obtain ⟨wellFormed, lexical⟩ := first.wellFormed (lexical_ident.1 lexical).2
    have others := ih lexical
    simp_all [Script.isWellFormed]
  | stmt first noImport _ ih =>
    obtain ⟨wellFormed, lexical⟩ := first.wellFormed lexical noImport
    have others := ih lexical
    simp_all [Script.isWellFormed]

theorem wellFormed_of_parse {source : String} {s : Script} (h : parse source = .ok s) :
    s.isWellFormed := by
  obtain ⟨ts, scanned, parsed⟩ := bind_eq_ok.1 h
  exact (script_form parsed).wellFormed (lexical_scan scanned)

end Script

end CodeCache
