import CodeCache.Proofs.Computation
import CodeCache.Script.Parser

/-! # Parsing with a position

The parser as a machine that keeps the tokens of a source, with a mark at their end, and the
position of the token it reads next. Marks and words that are recognised move the position on by
one, whatever stands there, and lists, members and statements are loops that turn until they find
what closes them. Nothing keeps the position inside the tokens and nothing ends a loop but what is
read: a read outside the tokens and a run without end are ways to stop of their own, so that it can
be said of a run that they do not happen. -/

namespace CodeCache.Script

/-- The tokens of a source; nothing stands for the mark at their end. -/
def withEnd (ts : List Token) : List (Option Token) := ts.map some ++ [none]

structure Cursor where
  tokens : List (Option Token)
  pos : Nat

/-- Why a run comes to no result: what is read is no script, a token was to be read where there is
none, or a loop turned or expressions were opened inside each other more often than there are
tokens. -/
inductive Stop where
  | syntaxError (e : SyntaxError)
  | outside
  | endless

abbrev Reading (α : Type) : Type := ExceptT Stop (StateM Cursor) α

namespace Reading

variable {α β σ : Type}

def fail (e : SyntaxError) : Reading α := throw (.syntaxError e)

def peek : Reading (Option Token) := do
  let c ← get
  match c.tokens[c.pos]? with
  | some t => return t
  | none => throw .outside

def skip : Reading Unit := modify fun c => { c with pos := c.pos + 1 }

/-- The next token, which is left behind unless it is the mark at the end. -/
def next : Reading (Option Token) := do
  match ← peek with
  | some t =>
    skip
    return some t
  | none => return none

/-- Whether the next token is `t`, which is then left behind. -/
def eat (t : Token) : Reading Bool := do
  if (← peek) = some t then
    skip
    return true
  else return false

def expect (t : Token) (text : String) : Reading Unit := do
  if ← eat t then return ()
  else fail (.expected text (← peek))

def expectPunct (c : Char) : Reading Unit := expect (.punct c) (String.singleton c)

def expectWord (word : String) : Reading Unit := expect (.ident word) word

def identifier : Reading String := do
  match ← next with
  | some (.ident name) => return name
  | found => fail (.expectedIdentifier found)

def stringLiteral : Reading String := do
  match ← next with
  | some (.str text) => return text
  | found => fail (.expectedString found)

def propertyKey : Reading String := do
  match ← next with
  | some (.ident name) => return name
  | some (.str text) => return text
  | found => fail (.expectedKey found)

def turns (turn : σ → Reading (ForInStep σ)) : (bound : Nat) → σ → Reading σ
  | 0, _ => throw .endless
  | bound + 1, s => do
    match ← turn s with
    | .yield s => turns turn bound s
    | .done s => return s

def loop (turn : σ → Reading (ForInStep σ)) (s : σ) : Reading σ := do
  let c ← get
  turns turn c.tokens.length s

def listTurn (close : Char) (part : Reading α) (xs : List α) : Reading (ForInStep (List α)) := do
  if ← eat (.punct close) then return .done xs
  else
    let x ← part
    if ← eat (.punct ',') then return .yield (xs ++ [x])
    else
      expectPunct close
      return .done (xs ++ [x])

def nameAndAlias : Reading (String × String) := do
  let name ← identifier
  if ← eat (.ident "as") then
    let other ← identifier
    return (name, other)
  else return (name, name)

def aliasTurn (make : String × String → α) : List α → Reading (ForInStep (List α)) :=
  listTurn '\x7d' (make <$> nameAndAlias)

def literal (negative : Bool) (text : String) : Reading Expr :=
  match number negative text with
  | .ok e => return e
  | .error e => fail e

def negated : Reading Expr := do
  match ← next with
  | some (.num text) => literal true text
  | found => fail (.expectedNumber found)

def property (value : Reading Expr) : Reading (String × Expr) := do
  let key ← propertyKey
  if ← eat (.punct ':') then return (key, ← value)
  else return (key, .ident key)

def itemTurn (value : Reading Expr) : List Expr → Reading (ForInStep (List Expr)) :=
  listTurn ']' value

def propertyTurn (value : Reading Expr) :
    List (String × Expr) → Reading (ForInStep (List (String × Expr))) :=
  listTurn '\x7d' (property value)

def operand (value : Reading Expr) : Reading Expr := do
  match ← next with
  | some (.num text) => literal false text
  | some (.str text) => return .str text
  | some (.ident word) => return wordValue word
  | some (.punct c) =>
    if c = '-' then negated
    else if c = '[' then return .array (← loop (itemTurn value) [])
    else if c = '\x7b' then return .object (← loop (propertyTurn value) [])
    else fail (.unexpectedToken (some (.punct c)))
  | none => fail (.unexpectedToken none)

def memberTurn (e : Expr) : Reading (ForInStep Expr) := do
  if ← eat (.punct '.') then
    let name ← identifier
    return .yield (.member e name)
  else return .done e

def exprWithin : (depth : Nat) → Reading Expr
  | 0 => throw .endless
  | depth + 1 => do
    let e ← operand (exprWithin depth)
    loop memberTurn e

def expr : Reading Expr := do
  let c ← get
  exprWithin c.tokens.length

def isDeclaring (t : Option Token) : Bool :=
  t = some (.ident "const") || t = some (.ident "let") || t = some (.ident "var")

def declaringWord : Reading Unit := do
  if ← eat (.ident "const") then return ()
  else if ← eat (.ident "let") then return ()
  else if ← eat (.ident "var") then return ()
  else fail (.expectedDeclaration (← peek))

def declaration (exported : Bool) : Reading Stmt := do
  declaringWord
  let name ← identifier
  expectPunct '='
  let init ← expr
  return .declare name init exported

def exportStmt : Reading Stmt := do
  if ← eat (.ident "default") then return .exportDefault (← expr)
  else if ← eat (.punct '\x7b') then return .exportList (← loop (aliasTurn id) [])
  else declaration true

def stmt : Reading Stmt := do
  if ← eat (.ident "export") then exportStmt
  else if ← eat (.ident "throw") then return .throw (← expr)
  else if isDeclaring (← peek) then declaration false
  else return .expr (← expr)

def everything : Reading Binding := do
  expectWord "as"
  return .everything (← identifier)

def bindingGroup (bs : List Binding) : Reading (List Binding) := do
  if ← eat (.punct '*') then return bs ++ [← everything]
  else
    expectPunct '\x7b'
    loop (aliasTurn namedBinding) bs

def bindings : Reading (List Binding) := do
  if ← eat (.punct '*') then return [← everything]
  else
    match ← peek with
    | some (.ident _) =>
      let name ← identifier
      if ← eat (.punct ',') then bindingGroup [.defaultExport name]
      else return [.defaultExport name]
    | _ => bindingGroup []

def importDecl : Reading Import := do
  match ← peek with
  | some (.str _) => return ⟨← stringLiteral, []⟩
  | _ =>
    let bs ← bindings
    expectWord "from"
    return ⟨← stringLiteral, bs⟩

def part (s : Script) : Reading Script := do
  if ← eat (.ident "import") then
    let i ← importDecl
    return { s with imports := s.imports ++ [i] }
  else
    let st ← stmt
    return { s with body := s.body ++ [st] }

def scriptTurn (s : Script) : Reading (ForInStep Script) := do
  if (← peek) = none then return .done s
  else if ← eat (.punct ';') then return .yield s
  else
    let s ← part s
    let _ ← eat (.punct ';')
    return .yield s

def script : Reading Script := loop scriptTurn {}

/-- A success moves the position on by at least the number that belongs to its result. -/
def Gains (least : α → Nat) (r : Reading α) : Prop :=
  ∀ ⦃c x c'⦄, r.run c = (.ok x, c') → c.pos + least x ≤ c'.pos

def Keeps : Reading α → Prop := Gains fun _ => 0

def Consumes : Reading α → Prop := Gains fun _ => 1

/-- What a turn takes at least: a token, unless it is the last one. -/
def goingOn : ForInStep σ → Nat
  | .yield _ => 1
  | .done _ => 0

section

variable {least more : α → Nat} {t : Token} {x : α}

theorem run_peek (c : Cursor) :
    peek.run c =
      match c.tokens[c.pos]? with
      | some t => (.ok t, c)
      | none => (.error .outside, c) := by
  show (match c.tokens[c.pos]? with
    | some t => (pure t : Reading (Option Token))
    | none => (throw Stop.outside : Reading (Option Token))).run c = _
  cases c.tokens[c.pos]? <;> rfl

theorem peek_outside_iff (c : Cursor) :
    (peek.run c).1 = .error .outside ↔ c.tokens.length ≤ c.pos := by
  rw [run_peek, ← List.getElem?_eq_none_iff]
  cases c.tokens[c.pos]? <;> simp

theorem Gains.mono {r : Reading α} (h : Gains more r) (le : ∀ x, least x ≤ more x) :
    Gains least r :=
  fun _ x _ run => Nat.le_trans (Nat.add_le_add_left (le x) _) (h run)

theorem Consumes.keeps {r : Reading α} (h : Consumes r) : Keeps r :=
  Gains.mono h fun _ => Nat.zero_le 1

theorem Gains.pure (h : least x = 0) : Gains least (pure x) := by
  rintro c _ _ ⟨⟩
  rw [h]
  exact Nat.le_refl _

theorem Gains.throw (stop : Stop) : Gains least (throw stop) := by
  rintro c x c' ⟨⟩

theorem Gains.bind {gain : α → Nat} {least : β → Nat} {r : Reading α} {k : α → Reading β}
    (first : Gains gain r) (later : ∀ x, Gains (fun y => least y - gain x) (k x)) :
    Gains least (r >>= k) := by
  intro c y c' run
  obtain ⟨x, middle, read, rest⟩ := Action.run_bind_eq_ok.1 run
  have begun := first read
  have done := later x rest
  dsimp only at done
  omega

theorem keeps_peek : Keeps peek := by
  intro c t c' run
  rw [run_peek] at run
  split at run
  · cases run
    exact Nat.le_refl _
  · cases run

theorem gains_skip : Gains (fun _ => 1) skip := by
  rintro c _ _ ⟨⟩
  exact Nat.le_refl _

theorem gains_next : Gains (fun t => if t = none then 0 else 1) next := by
  refine Gains.bind keeps_peek fun t => ?_
  cases t with
  | none => exact .pure rfl
  | some t => exact Gains.bind gains_skip fun _ => .pure rfl

theorem gains_eat (t : Token) : Gains (fun found => if found then 1 else 0) (eat t) := by
  refine Gains.bind keeps_peek fun found => ?_
  split
  · exact Gains.bind gains_skip fun _ => .pure rfl
  · exact .pure rfl

theorem Gains.ifEat {yes no : Reading α} (onYes : Gains (fun x => least x - 1) yes)
    (onNo : Gains least no) : Gains least (do if ← eat t then yes else no) := by
  refine Gains.bind (gains_eat t) fun found => ?_
  cases found with
  | true => exact onYes
  | false => exact onNo

theorem Keeps.bind {r : Reading α} {k : α → Reading β} (first : Keeps r)
    (later : ∀ x, Keeps (k x)) : Keeps (r >>= k) :=
  Gains.bind first later

theorem Consumes.bind {r : Reading α} {k : α → Reading β} (first : Consumes r)
    (later : ∀ x, Keeps (k x)) : Consumes (r >>= k) :=
  Gains.bind first later

theorem Keeps.bind_consumes {r : Reading α} {k : α → Reading β} (first : Keeps r)
    (later : ∀ x, Consumes (k x)) : Consumes (r >>= k) :=
  Gains.bind first later

theorem consumes_next_bind {k : Option Token → Reading α} (atEnd : Consumes (k none))
    (atToken : ∀ t, Keeps (k (some t))) : Consumes (next >>= k) := by
  refine Gains.bind gains_next fun t => ?_
  cases t with
  | none => exact atEnd
  | some t => exact atToken t

theorem consumes_expect (t : Token) (text : String) : Consumes (expect t text) :=
  .ifEat (.pure rfl) (.bind keeps_peek fun _ => .throw _)

theorem consumes_expectPunct (c : Char) : Consumes (expectPunct c) := consumes_expect _ _

theorem consumes_expectWord (word : String) : Consumes (expectWord word) := consumes_expect _ _

theorem consumes_identifier : Consumes identifier := by
  refine consumes_next_bind (.throw _) fun t => ?_
  cases t with
  | ident name => exact .pure rfl
  | str | num | punct => exact .throw _

theorem consumes_stringLiteral : Consumes stringLiteral := by
  refine consumes_next_bind (.throw _) fun t => ?_
  cases t with
  | str text => exact .pure rfl
  | ident | num | punct => exact .throw _

theorem consumes_propertyKey : Consumes propertyKey := by
  refine consumes_next_bind (.throw _) fun t => ?_
  cases t with
  | ident | str => exact .pure rfl
  | num | punct => exact .throw _

theorem keeps_turns {turn : σ → Reading (ForInStep σ)} (keeps : ∀ s, Keeps (turn s))
    (bound : Nat) (s : σ) : Keeps (turns turn bound s) := by
  induction bound generalizing s with
  | zero => exact .throw _
  | succ bound ih =>
    refine Keeps.bind (keeps s) fun step => ?_
    cases step with
    | «yield» s => exact ih s
    | done s => exact .pure rfl

theorem keeps_get : Keeps (get : Reading Cursor) := by
  rintro c _ _ ⟨⟩
  exact Nat.le_refl _

theorem keeps_loop {turn : σ → Reading (ForInStep σ)} (keeps : ∀ s, Keeps (turn s)) (s : σ) :
    Keeps (loop turn s) :=
  Keeps.bind keeps_get fun _ => keeps_turns keeps _ s

/-- A list takes a token at each turn: its closing mark, a comma, or the mark that closes it after
a part. -/
theorem consumes_listTurn {close : Char} {part : Reading α} (keeps : Keeps part) (xs : List α) :
    Consumes (listTurn close part xs) := by
  refine Gains.ifEat (.pure rfl) ?_
  refine Keeps.bind_consumes keeps fun x => ?_
  refine Gains.ifEat (.pure rfl) ?_
  exact Consumes.bind (consumes_expectPunct close) fun _ => .pure rfl

theorem consumes_nameAndAlias : Consumes nameAndAlias :=
  Consumes.bind consumes_identifier fun _ =>
    .ifEat (.bind consumes_identifier.keeps fun _ => .pure rfl) (.pure rfl)

theorem consumes_aliasTurn (make : String × String → α) (xs : List α) :
    Consumes (aliasTurn make xs) := by
  refine consumes_listTurn ?_ xs
  rw [map_eq_pure_bind]
  exact Keeps.bind consumes_nameAndAlias.keeps fun _ => .pure rfl

theorem keeps_literal (negative : Bool) (text : String) : Keeps (literal negative text) := by
  unfold literal
  split
  · exact .pure rfl
  · exact .throw _

theorem keeps_negated : Keeps negated := by
  refine Keeps.bind (gains_next.mono fun _ => Nat.zero_le _) fun t => ?_
  split
  · exact keeps_literal true _
  · exact .throw _

theorem consumes_property {value : Reading Expr} (keeps : Keeps value) :
    Consumes (property value) :=
  Consumes.bind consumes_propertyKey fun _ => .ifEat (.bind keeps fun _ => .pure rfl) (.pure rfl)

theorem consumes_itemTurn {value : Reading Expr} (keeps : Keeps value) (es : List Expr) :
    Consumes (itemTurn value es) :=
  consumes_listTurn keeps es

theorem consumes_propertyTurn {value : Reading Expr} (keeps : Keeps value)
    (ps : List (String × Expr)) : Consumes (propertyTurn value ps) :=
  consumes_listTurn (consumes_property keeps).keeps ps

theorem consumes_operand {value : Reading Expr} (keeps : Keeps value) :
    Consumes (operand value) := by
  refine consumes_next_bind (.throw _) fun t => ?_
  cases t with
  | num text => exact keeps_literal false text
  | str | ident => exact .pure rfl
  | punct c =>
    dsimp only
    split
    · exact keeps_negated
    split
    · have items := keeps_loop (fun es => (consumes_itemTurn keeps es).keeps) []
      exact Keeps.bind items fun _ => .pure rfl
    split
    · have properties := keeps_loop (fun ps => (consumes_propertyTurn keeps ps).keeps) []
      exact Keeps.bind properties fun _ => .pure rfl
    · exact .throw _

theorem gains_memberTurn (e : Expr) : Gains goingOn (memberTurn e) := by
  refine Gains.ifEat ?_ (.pure rfl)
  exact Gains.bind consumes_identifier.keeps fun _ => .pure rfl

theorem keeps_memberTurn (e : Expr) : Keeps (memberTurn e) :=
  (gains_memberTurn e).mono fun _ => Nat.zero_le _

theorem consumes_exprWithin (depth : Nat) : Consumes (exprWithin depth) := by
  induction depth with
  | zero => exact .throw _
  | succ depth ih =>
    exact Consumes.bind (consumes_operand ih.keeps) fun e => keeps_loop keeps_memberTurn e

theorem consumes_expr : Consumes expr :=
  Keeps.bind_consumes keeps_get fun _ => consumes_exprWithin _

theorem consumes_declaringWord : Consumes declaringWord :=
  .ifEat (.pure rfl) <| .ifEat (.pure rfl) <| .ifEat (.pure rfl) <|
    .bind keeps_peek fun _ => .throw _

theorem consumes_declaration (exported : Bool) : Consumes (declaration exported) :=
  Consumes.bind consumes_declaringWord fun _ =>
    Keeps.bind consumes_identifier.keeps fun _ =>
      Keeps.bind (consumes_expectPunct '=').keeps fun _ =>
        Keeps.bind consumes_expr.keeps fun _ => .pure rfl

theorem keeps_exportStmt : Keeps exportStmt := by
  refine Gains.ifEat (Keeps.bind consumes_expr.keeps fun _ => .pure rfl) ?_
  refine Gains.ifEat ?_ (consumes_declaration true).keeps
  have names := keeps_loop (fun names => (consumes_aliasTurn id names).keeps) []
  exact Keeps.bind names fun _ => .pure rfl

theorem consumes_stmt : Consumes stmt := by
  refine Gains.ifEat keeps_exportStmt ?_
  refine Gains.ifEat (Keeps.bind consumes_expr.keeps fun _ => .pure rfl) ?_
  refine Keeps.bind_consumes keeps_peek fun t => ?_
  split
  · exact consumes_declaration false
  · exact Consumes.bind consumes_expr fun _ => .pure rfl

theorem consumes_everything : Consumes everything :=
  Consumes.bind (consumes_expectWord "as") fun _ =>
    Keeps.bind consumes_identifier.keeps fun _ => .pure rfl

theorem keeps_bindingGroup (bs : List Binding) : Keeps (bindingGroup bs) := by
  refine Gains.ifEat (Keeps.bind consumes_everything.keeps fun _ => .pure rfl) ?_
  refine Keeps.bind (consumes_expectPunct _).keeps fun _ => ?_
  exact keeps_loop (fun bs => (consumes_aliasTurn namedBinding bs).keeps) bs

theorem keeps_bindings : Keeps bindings := by
  refine Gains.ifEat (Keeps.bind consumes_everything.keeps fun _ => .pure rfl) ?_
  refine Keeps.bind keeps_peek fun t => ?_
  split
  · refine Keeps.bind consumes_identifier.keeps fun name => ?_
    exact Gains.ifEat (keeps_bindingGroup _) (.pure rfl)
  · exact keeps_bindingGroup []

theorem keeps_importDecl : Keeps importDecl := by
  refine Keeps.bind keeps_peek fun t => ?_
  split
  · exact Keeps.bind consumes_stringLiteral.keeps fun _ => .pure rfl
  · refine Keeps.bind keeps_bindings fun bs => ?_
    refine Keeps.bind (consumes_expectWord "from").keeps fun _ => ?_
    exact Keeps.bind consumes_stringLiteral.keeps fun _ => .pure rfl

theorem consumes_part (s : Script) : Consumes (part s) := by
  refine Gains.ifEat (Keeps.bind keeps_importDecl fun _ => .pure rfl) ?_
  exact Consumes.bind consumes_stmt fun _ => .pure rfl

theorem gains_scriptTurn (s : Script) : Gains goingOn (scriptTurn s) := by
  refine Gains.bind keeps_peek fun t => ?_
  split
  · exact .pure rfl
  · refine Gains.ifEat (.pure rfl) ?_
    refine Gains.bind (consumes_part s) fun s => ?_
    exact Gains.bind (gains_eat _) fun _ => .pure (Nat.zero_sub _)

end

end Reading

end CodeCache.Script
