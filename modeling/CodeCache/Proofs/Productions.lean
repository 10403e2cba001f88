import CodeCache.Proofs.Computation
import CodeCache.Script.Parser

/-! # What the productions read

A production that succeeds has found one of the forms that the grammar allows at its place. The
forms are listed here with the tokens before and after them, so that a fact about everything the
parser reads is a case analysis over the forms. -/

namespace CodeCache.Script

variable {α : Type} {ts rest : List Token} {depth : Nat}

theorem eq_cons_of_head {t : Token} (h : ts.head? = some t) : ts = t :: ts.tail := by
  cases ts with
  | nil => cases h
  | cons u us => cases h; rfl

theorem expectPunct_eq_ok {c : Char} : expectPunct c ts = .ok rest ↔ ts = .punct c :: rest := by
  cases ts with
  | nil => simp [expectPunct]
  | cons t ts => by_cases mark : t = .punct c <;> simp [expectPunct, mark]

theorem expectWord_eq_ok {word : String} :
    expectWord word ts = .ok rest ↔ ts = .ident word :: rest := by
  cases ts with
  | nil => simp [expectWord]
  | cons t ts => by_cases found : t = .ident word <;> simp [expectWord, found]

theorem identifier_eq_ok {name : String} :
    identifier ts = .ok (name, rest) ↔ ts = .ident name :: rest := by
  rcases ts with _ | ⟨_ | _ | _ | _, ts⟩ <;> simp [identifier]

theorem stringLiteral_eq_ok {text : String} :
    stringLiteral ts = .ok (text, rest) ↔ ts = .str text :: rest := by
  rcases ts with _ | ⟨_ | _ | _ | _, ts⟩ <;> simp [stringLiteral]

theorem propertyKey_eq_ok {key : String} :
    propertyKey ts = .ok (key, rest) ↔ ts = .ident key :: rest ∨ ts = .str key :: rest := by
  rcases ts with _ | ⟨_ | _ | _ | _, ts⟩ <;> simp [propertyKey]

inductive ListForm (close : Char) (part : List Token → Except SyntaxError (Parsed α))
    (again : List Token → Except SyntaxError (Parsed (List α))) :
    List Token → List α → List Token → Prop
  | done {rest : List Token} : ListForm close part again (.punct close :: rest) [] rest
  | last {ts rest : List Token} {x : α} (part_ok : part ts = .ok (x, .punct close :: rest)) :
      ListForm close part again ts [x] rest
  | more {ts after rest : List Token} {x : α} {xs : List α}
      (part_ok : part ts = .ok (x, .punct ',' :: after)) (again_ok : again after = .ok (xs, rest)) :
      ListForm close part again ts (x :: xs) rest

/-- One step through the parts of a list up to its closing mark. -/
def listStep (close : Char) (part : List Token → Except SyntaxError (Parsed α))
    (again : List Token → Except SyntaxError (Parsed (List α))) (ts : List Token) :
    Except SyntaxError (Parsed (List α)) :=
  if ts.head? = some (.punct close) then .ok ([], ts.tail)
  else do
    let (x, rest) ← part ts
    if rest.head? = some (.punct ',') then
      let (xs, rest) ← again rest.tail
      return (x :: xs, rest)
    else
      let rest ← expectPunct close rest
      return ([x], rest)

theorem listStep_form {close : Char} {part : List Token → Except SyntaxError (Parsed α)}
    {again : List Token → Except SyntaxError (Parsed (List α))} {xs : List α}
    (h : listStep close part again ts = .ok (xs, rest)) :
    ListForm close part again ts xs rest := by
  rw [listStep] at h
  split at h
  case isTrue closed =>
    rw [eq_cons_of_head closed]
    cases h
    exact .done
  case isFalse =>
    obtain ⟨⟨x, after⟩, first, h⟩ := bind_eq_ok.1 h
    dsimp only at h
    split at h
    case isTrue comma =>
      obtain ⟨⟨others, last⟩, more, h⟩ := bind_eq_ok.1 h
      rw [eq_cons_of_head comma] at first
      cases h
      exact .more first more
    case isFalse =>
      obtain ⟨last, closed, h⟩ := bind_eq_ok.1 h
      rw [expectPunct_eq_ok.1 closed] at first
      cases h
      exact .last first

inductive AliasForm : List Token → String × String → List Token → Prop
  | alone {name : String} {rest : List Token} : AliasForm (.ident name :: rest) (name, name) rest
  | renamed {name other : String} {rest : List Token} :
      AliasForm (.ident name :: .ident "as" :: .ident other :: rest) (name, other) rest

theorem nameAndAlias_form {pair : String × String} (h : nameAndAlias ts = .ok (pair, rest)) :
    AliasForm ts pair rest := by
  obtain ⟨⟨name, after⟩, first, h⟩ := bind_eq_ok.1 h
  rw [identifier_eq_ok.1 first]
  dsimp only at h
  split at h
  case isTrue word =>
    obtain ⟨⟨other, last⟩, second, h⟩ := bind_eq_ok.1 h
    rw [eq_cons_of_head word, identifier_eq_ok.1 second]
    cases h
    exact .renamed
  case isFalse =>
    cases h
    exact .alone

theorem aliases_succ :
    aliases (depth + 1) ts = listStep '\x7d' nameAndAlias (aliases depth) ts := rfl

theorem aliases_form {pairs : List (String × String)}
    (h : aliases (depth + 1) ts = .ok (pairs, rest)) :
    ListForm '\x7d' nameAndAlias (aliases depth) ts pairs rest :=
  listStep_form h

theorem number_eq_ok {negative : Bool} {text : String} {e : Expr}
    (h : number negative text = .ok e) :
    (∃ i, e = .int i) ∨ ∃ digits places, e = .float (.ofDecimal negative digits places) := by
  unfold number at h
  dsimp only at h
  split at h
  · split at h
    · cases h
      exact .inl ⟨_, rfl⟩
    split at h
    · cases h
      exact .inl ⟨_, rfl⟩
    · cases h
      exact .inr ⟨_, _, rfl⟩
  · cases h
    exact .inr ⟨_, _, rfl⟩
  · cases h

inductive AtomForm : List Token → Expr → List Token → Prop
  | number {text : String} {e : Expr} {rest : List Token} (number_ok : number false text = .ok e) :
      AtomForm (.num text :: rest) e rest
  | negative {text : String} {e : Expr} {rest : List Token}
      (number_ok : Script.number true text = .ok e) :
      AtomForm (.punct '-' :: .num text :: rest) e rest
  | str {text : String} {rest : List Token} : AtomForm (.str text :: rest) (.str text) rest
  | word {word : String} {rest : List Token} :
      AtomForm (.ident word :: rest) (wordValue word) rest

theorem atom_form {e : Expr} (h : atom ts = .ok (e, rest)) : AtomForm ts e rest := by
  unfold atom at h
  split at h
  · obtain ⟨value, read, h⟩ := bind_eq_ok.1 h
    cases h
    exact .number read
  · cases h
    exact .str
  · cases h
    exact .word
  · split at h
    case isTrue minus =>
      subst minus
      split at h
      · obtain ⟨value, read, h⟩ := bind_eq_ok.1 h
        cases h
        exact .negative read
      · cases h
    case isFalse => cases h
  · cases h

inductive MembersForm : Expr → List Token → Expr → List Token → Prop
  | done {e : Expr} {ts : List Token} : MembersForm e ts e ts
  | key {target e : Expr} {name : String} {ts rest : List Token}
      (form : MembersForm (.member target name) ts e rest) :
      MembersForm target (.punct '.' :: .ident name :: ts) e rest

theorem members_form {target e : Expr} (h : members target ts = .ok (e, rest)) :
    MembersForm target ts e rest := by
  fun_induction members target ts with
  | case1 target name ts ih => exact .key (ih h)
  | case2 => cases h
  | case3 =>
    cases h
    exact .done

def property (value : List Token → Except SyntaxError (Parsed Expr)) (ts : List Token) :
    Except SyntaxError (Parsed (String × Expr)) := do
  let (key, rest) ← propertyKey ts
  let (e, rest) ← propertyValue value key rest
  return ((key, e), rest)

inductive PropertyForm (value : List Token → Except SyntaxError (Parsed Expr)) :
    List Token → String × Expr → List Token → Prop
  | shorthand {ts rest : List Token} {key : String} (key_ok : propertyKey ts = .ok (key, rest)) :
      PropertyForm value ts (key, .ident key) rest
  | full {ts after rest : List Token} {key : String} {e : Expr}
      (key_ok : propertyKey ts = .ok (key, .punct ':' :: after))
      (value_ok : value after = .ok (e, rest)) :
      PropertyForm value ts (key, e) rest

theorem property_form {value : List Token → Except SyntaxError (Parsed Expr)}
    {p : String × Expr} (h : property value ts = .ok (p, rest)) : PropertyForm value ts p rest := by
  obtain ⟨⟨key, after⟩, first, h⟩ := bind_eq_ok.1 h
  obtain ⟨⟨e, last⟩, second, h⟩ := bind_eq_ok.1 h
  cases h
  dsimp only [propertyValue] at second
  split at second
  case isTrue colon =>
    rw [eq_cons_of_head colon] at first
    exact .full first second
  case isFalse =>
    cases second
    exact .shorthand first

inductive OperandForm (depth : Nat) : List Token → Expr → List Token → Prop
  | array {ts rest : List Token} {es : List Expr}
      (items_ok : itemsWithin depth ts = .ok (es, rest)) :
      OperandForm depth (.punct '[' :: ts) (.array es) rest
  | object {ts rest : List Token} {ps : List (String × Expr)}
      (properties_ok : propertiesWithin depth ts = .ok (ps, rest)) :
      OperandForm depth (.punct '\x7b' :: ts) (.object ps) rest
  | atom {ts rest : List Token} {e : Expr} (form : AtomForm ts e rest) : OperandForm depth ts e rest

theorem exprWithin_form {e : Expr} (h : exprWithin (depth + 1) ts = .ok (e, rest)) :
    ∃ operand after, OperandForm depth ts operand after ∧ MembersForm operand after e rest := by
  rw [exprWithin] at h
  split at h
  case isTrue bracket =>
    obtain ⟨⟨es, after⟩, items, h⟩ := bind_eq_ok.1 h
    rw [eq_cons_of_head bracket]
    exact ⟨_, _, .array items, members_form h⟩
  split at h
  case isTrue brace =>
    obtain ⟨⟨ps, after⟩, properties, h⟩ := bind_eq_ok.1 h
    rw [eq_cons_of_head brace]
    exact ⟨_, _, .object properties, members_form h⟩
  case isFalse =>
    obtain ⟨⟨operand, after⟩, first, h⟩ := bind_eq_ok.1 h
    exact ⟨_, _, .atom (atom_form first), members_form h⟩

theorem itemsWithin_succ :
    itemsWithin (depth + 1) ts = listStep ']' (exprWithin depth) (itemsWithin depth) ts := by
  rw [itemsWithin, listStep]

theorem itemsWithin_form {es : List Expr} (h : itemsWithin (depth + 1) ts = .ok (es, rest)) :
    ListForm ']' (exprWithin depth) (itemsWithin depth) ts es rest :=
  listStep_form (itemsWithin_succ.symm.trans h)

theorem propertiesWithin_succ :
    propertiesWithin (depth + 1) ts =
      listStep '\x7d' (property (exprWithin depth)) (propertiesWithin depth) ts := by
  simp only [propertiesWithin, listStep, property, bind_assoc, pure_bind]

theorem propertiesWithin_form {ps : List (String × Expr)}
    (h : propertiesWithin (depth + 1) ts = .ok (ps, rest)) :
    ListForm '\x7d' (property (exprWithin depth)) (propertiesWithin depth) ts ps rest :=
  listStep_form (propertiesWithin_succ.symm.trans h)

def declaringWords : List String := ["const", "let", "var"]

theorem startsDeclaration_eq_true :
    startsDeclaration ts = true ↔ ∃ word ∈ declaringWords, ts.head? = some (.ident word) := by
  simp [startsDeclaration, declaringWords, or_assoc]

inductive DeclarationForm : List Token → String → Expr → List Token → Prop
  | intro {ts rest : List Token} {word name : String} {e : Expr} (declaring : word ∈ declaringWords)
      (value_ok : expr ts = .ok (e, rest)) :
      DeclarationForm (.ident word :: .ident name :: .punct '=' :: ts) name e rest

theorem declaration_form {exported : Bool} {st : Stmt} (starts : startsDeclaration ts = true)
    (h : declaration exported ts = .ok (st, rest)) :
    ∃ name e, st = .declare name e exported ∧ DeclarationForm ts name e rest := by
  obtain ⟨word, declaring, head⟩ := startsDeclaration_eq_true.1 starts
  obtain ⟨⟨name, afterName⟩, first, h⟩ := bind_eq_ok.1 h
  obtain ⟨afterMark, mark, h⟩ := bind_eq_ok.1 h
  obtain ⟨⟨e, last⟩, value, h⟩ := bind_eq_ok.1 h
  rw [expectPunct_eq_ok.1 mark] at first
  rw [eq_cons_of_head head, identifier_eq_ok.1 first]
  cases h
  exact ⟨_, _, rfl, .intro declaring value⟩

inductive StmtForm : List Token → Stmt → List Token → Prop
  | exportDefault {ts rest : List Token} {e : Expr} (value_ok : expr ts = .ok (e, rest)) :
      StmtForm (.ident "export" :: .ident "default" :: ts) (.exportDefault e) rest
  | exportList {ts rest : List Token} {pairs : List (String × String)} {depth : Nat}
      (names_ok : aliases depth ts = .ok (pairs, rest)) :
      StmtForm (.ident "export" :: .punct '\x7b' :: ts) (.exportList pairs) rest
  | exportDeclare {ts rest : List Token} {name : String} {e : Expr}
      (form : DeclarationForm ts name e rest) :
      StmtForm (.ident "export" :: ts) (.declare name e true) rest
  | throw {ts rest : List Token} {e : Expr} (value_ok : expr ts = .ok (e, rest)) :
      StmtForm (.ident "throw" :: ts) (.throw e) rest
  | declare {ts rest : List Token} {name : String} {e : Expr}
      (form : DeclarationForm ts name e rest) : StmtForm ts (.declare name e false) rest
  | expr {ts rest : List Token} {e : Expr} (value_ok : Script.expr ts = .ok (e, rest))
      (plain : ∀ word ∈ "export" :: "throw" :: declaringWords, ts.head? ≠ some (.ident word)) :
      StmtForm ts (.expr e) rest

theorem exportStmt_form {st : Stmt} (h : exportStmt ts = .ok (st, rest)) :
    StmtForm (.ident "export" :: ts) st rest := by
  rw [exportStmt] at h
  split at h
  case isTrue word =>
    obtain ⟨⟨e, last⟩, value, h⟩ := bind_eq_ok.1 h
    rw [eq_cons_of_head word]
    cases h
    exact .exportDefault value
  split at h
  case isTrue brace =>
    obtain ⟨⟨pairs, last⟩, names, h⟩ := bind_eq_ok.1 h
    rw [eq_cons_of_head brace]
    cases h
    exact .exportList names
  split at h
  case isTrue starts =>
    obtain ⟨name, e, rfl, form⟩ := declaration_form starts h
    exact .exportDeclare form
  case isFalse => cases h

theorem stmt_form {st : Stmt} (h : stmt ts = .ok (st, rest)) : StmtForm ts st rest := by
  rw [stmt] at h
  split at h
  case isTrue word =>
    rw [eq_cons_of_head word]
    exact exportStmt_form h
  case isFalse noExport =>
    split at h
    case isTrue word =>
      obtain ⟨⟨e, last⟩, value, h⟩ := bind_eq_ok.1 h
      rw [eq_cons_of_head word]
      cases h
      exact .throw value
    case isFalse noThrow =>
      split at h
      case isTrue starts =>
        obtain ⟨name, e, rfl, form⟩ := declaration_form starts h
        exact .declare form
      case isFalse noDeclaration =>
        obtain ⟨⟨e, last⟩, value, h⟩ := bind_eq_ok.1 h
        cases h
        refine .expr value ?_
        intro word listed
        rcases List.mem_cons.1 listed with rfl | listed
        · exact noExport
        rcases List.mem_cons.1 listed with rfl | listed
        · exact noThrow
        · exact fun head => noDeclaration (startsDeclaration_eq_true.2 ⟨word, listed, head⟩)

inductive GroupForm : List Token → List Binding → List Token → Prop
  | everything {name : String} {rest : List Token} :
      GroupForm (.punct '*' :: .ident "as" :: .ident name :: rest) [.everything name] rest
  | named {ts rest : List Token} {pairs : List (String × String)} {depth : Nat}
      (names_ok : aliases depth ts = .ok (pairs, rest)) :
      GroupForm (.punct '\x7b' :: ts) (pairs.map namedBinding) rest

theorem bindingGroup_form {bs : List Binding} (h : bindingGroup ts = .ok (bs, rest)) :
    GroupForm ts bs rest := by
  rw [bindingGroup] at h
  split at h
  case isTrue star =>
    obtain ⟨⟨b, last⟩, bound, h⟩ := bind_eq_ok.1 h
    obtain ⟨afterWord, word, bound⟩ := bind_eq_ok.1 bound
    obtain ⟨⟨name, afterName⟩, named, bound⟩ := bind_eq_ok.1 bound
    rw [eq_cons_of_head star, expectWord_eq_ok.1 word, identifier_eq_ok.1 named]
    cases bound
    cases h
    exact .everything
  case isFalse =>
    obtain ⟨afterBrace, brace, h⟩ := bind_eq_ok.1 h
    obtain ⟨⟨pairs, last⟩, names, h⟩ := bind_eq_ok.1 h
    rw [expectPunct_eq_ok.1 brace]
    cases h
    exact .named names

inductive BindingsForm : List Token → List Binding → List Token → Prop
  | alone {name : String} {rest : List Token} :
      BindingsForm (.ident name :: rest) [.defaultExport name] rest
  | both {ts rest : List Token} {name : String} {bs : List Binding} (form : GroupForm ts bs rest) :
      BindingsForm (.ident name :: .punct ',' :: ts) (.defaultExport name :: bs) rest
  | group {ts rest : List Token} {bs : List Binding} (form : GroupForm ts bs rest) :
      BindingsForm ts bs rest

theorem bindings_form {bs : List Binding} (h : bindings ts = .ok (bs, rest)) :
    BindingsForm ts bs rest := by
  unfold bindings at h
  split at h
  · split at h
    case isTrue comma =>
      obtain ⟨⟨group, last⟩, others, h⟩ := bind_eq_ok.1 h
      rw [eq_cons_of_head comma]
      cases h
      exact .both (bindingGroup_form others)
    case isFalse =>
      cases h
      exact .alone
  · exact .group (bindingGroup_form h)

inductive ImportForm : List Token → Import → List Token → Prop
  | bare {specifier : String} {rest : List Token} :
      ImportForm (.str specifier :: rest) ⟨specifier, []⟩ rest
  | binding {ts rest : List Token} {specifier : String} {bs : List Binding}
      (form : BindingsForm ts bs (.ident "from" :: .str specifier :: rest)) :
      ImportForm ts ⟨specifier, bs⟩ rest

theorem importDecl_form {i : Import} (h : importDecl ts = .ok (i, rest)) :
    ImportForm ts i rest := by
  unfold importDecl at h
  split at h
  · cases h
    exact .bare
  · obtain ⟨⟨bs, afterBindings⟩, bound, h⟩ := bind_eq_ok.1 h
    obtain ⟨afterWord, word, h⟩ := bind_eq_ok.1 h
    obtain ⟨⟨specifier, last⟩, source, h⟩ := bind_eq_ok.1 h
    rw [expectWord_eq_ok.1 word, stringLiteral_eq_ok.1 source] at bound
    cases h
    exact .binding (bindings_form bound)

inductive ScriptForm : List Token → Script → Prop
  | done : ScriptForm [] {}
  | separator {ts : List Token} {s : Script} (form : ScriptForm ts s) :
      ScriptForm (.punct ';' :: ts) s
  | importDecl {ts rest : List Token} {i : Import} {s : Script} (first : ImportForm ts i rest)
      (form : ScriptForm rest s) :
      ScriptForm (.ident "import" :: ts) { s with imports := i :: s.imports }
  | stmt {ts rest : List Token} {st : Stmt} {s : Script} (first : StmtForm ts st rest)
      (noImport : ts.head? ≠ some (.ident "import")) (form : ScriptForm rest s) :
      ScriptForm ts { s with body := st :: s.body }

theorem script_form {s : Script} (h : scriptWithin depth ts = .ok s) : ScriptForm ts s := by
  fun_induction scriptWithin depth ts generalizing s with
  | case1 =>
    cases h
    exact .done
  | case2 => cases h
  | case3 depth ts _ mark ih =>
    rw [eq_cons_of_head mark]
    exact .separator (ih h)
  | case4 depth ts _ _ word ih =>
    obtain ⟨⟨i, last⟩, first, h⟩ := bind_eq_ok.1 h
    obtain ⟨others, read, h⟩ := bind_eq_ok.1 h
    rw [eq_cons_of_head word]
    cases h
    exact .importDecl (importDecl_form first) (ih last read)
  | case5 depth ts _ _ noImport ih =>
    obtain ⟨⟨st, last⟩, first, h⟩ := bind_eq_ok.1 h
    obtain ⟨others, read, h⟩ := bind_eq_ok.1 h
    cases h
    exact .stmt (stmt_form first) noImport (ih last read)

end CodeCache.Script
