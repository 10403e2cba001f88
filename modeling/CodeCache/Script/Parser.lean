import CodeCache.Number
import CodeCache.Script.Basic
import CodeCache.Text

/-! # Parsing

Blanks, zero-width spaces, byte-order marks and comments separate tokens and are dropped. A word
begins with a letter, `_` or `$` and goes on with letters, numeric characters, `_` and `$`. A number
is an ASCII digit followed by digits and points. It denotes an integer when it has no point and 64
bits hold it with its sign, the nearest double when it has one point or is greater, and nothing when
it has more points. A string ends at its opening quote and may not hold a line break unless a
backslash stands before it.

Scripts are read from the token list by recursive descent. Each production returns what it read and
the remaining tokens. Semicolons between statements are optional, a comma may follow the last part
of a list, and words such as `import` or `as` are ordinary names wherever a name is required.
Productions that nest take a bound on their depth; the bound given at the top grows with the number
of tokens and is never reached. -/

namespace CodeCache.Script

inductive Token where
  | ident (name : String)
  | str (text : String)
  | num (text : String)
  | punct (c : Char)
deriving DecidableEq, Repr

inductive SyntaxError where
  | unterminatedComment
  | unterminatedString
  | unexpectedCharacter (c : Char)
  | expected (text : String) (found : Option Token)
  | expectedIdentifier (found : Option Token)
  | expectedString (found : Option Token)
  | expectedDeclaration (found : Option Token)
  | expectedNumber (found : Option Token)
  | expectedKey (found : Option Token)
  | unexpectedToken (found : Option Token)
  | invalidNumber (text : String)
  | tooDeep
deriving DecidableEq, Repr

def Token.describe : Option Token → String
  | none => "Eof"
  | some (ident name) => s!"Ident({Text.quoted name})"
  | some (str text) => s!"Str({Text.quoted text})"
  | some (num text) => s!"Num({Text.quoted text})"
  | some (punct c) => s!"Punct('{c}')"

def SyntaxError.message : SyntaxError → String
  | unterminatedComment => "unterminated comment"
  | unterminatedString => "unterminated string literal"
  | unexpectedCharacter c => s!"unexpected character '{c}'"
  | expected text found => s!"expected '{text}', found {Token.describe found}"
  | expectedIdentifier found => s!"expected identifier, found {Token.describe found}"
  | expectedString found => s!"expected string literal, found {Token.describe found}"
  | expectedDeclaration found => s!"expected declaration, found {Token.describe found}"
  | expectedNumber found => s!"expected number after '-', found {Token.describe found}"
  | expectedKey found => s!"expected property key, found {Token.describe found}"
  | unexpectedToken found => s!"unexpected token {Token.describe found}"
  | invalidNumber text => s!"invalid number '{text}'"
  | tooDeep => "nesting too deep"

namespace Token

def isSpace (c : Char) : Bool := Text.isBlank c || c = '\u200b' || c = '\ufeff'

def isWordStart (c : Char) : Bool := Text.isAlphabetic c || c = '_' || c = '$'

def isWordPart (c : Char) : Bool := Text.isAlphanumeric c || c = '_' || c = '$'

def isNumberPart (c : Char) : Bool := c.isDigit || c = '.'

def isPunct (c : Char) : Bool := c ∈ "\x7b\x7d[](),;:=.*-".toList

def skipComment : List Char → Option (List Char)
  | [] => none
  | c :: rest =>
    if c = '*' ∧ rest.head? = some '/' then some rest.tail else skipComment rest

def unescape (c : Char) : Char := if c = 'n' then '\n' else if c = 't' then '\t' else c

/-- The characters of a string up to the closing quote, and the rest after it. The characters that
were already read are given last one first. -/
def scanString (quote : Char) (done : List Char) : List Char → Option (List Char × List Char)
  | [] => none
  | c :: rest =>
    if c = '\n' then none
    else if c = quote then some (done.reverse, rest)
    else if c = '\\' then
      match rest with
      | [] => none
      | e :: rest => scanString quote (unescape e :: done) rest
    else scanString quote (c :: done) rest

theorem skipComment_length {cs rest : List Char} (h : skipComment cs = some rest) :
    rest.length < cs.length := by
  induction cs with
  | nil => simp [skipComment] at h
  | cons c cs ih =>
    rw [skipComment] at h
    split at h
    · cases h
      simp only [List.length_tail, List.length_cons]
      omega
    · have := ih h
      simp only [List.length_cons]
      omega

theorem scanString_length {quote : Char} {done cs text rest : List Char}
    (h : scanString quote done cs = some (text, rest)) : rest.length < cs.length := by
  fun_induction scanString quote done cs with
  | case1 => simp at h
  | case2 => simp at h
  | case3 => simp_all
  | case4 => simp at h
  | case5 done e rest _ _ ih =>
    have := ih h
    simp only [List.length_cons]
    omega
  | case6 done c rest _ _ _ ih =>
    have := ih h
    simp only [List.length_cons]
    omega

def scan (cs : List Char) : Except SyntaxError (List Token) :=
  match cs with
  | [] => .ok []
  | c :: rest =>
    if isSpace c then scan rest
    else if c = '/' ∧ rest.head? = some '/' then scan (rest.dropWhile (· ≠ '\n'))
    else if c = '/' ∧ rest.head? = some '*' then
      match _skipped : skipComment rest.tail with
      | none => .error .unterminatedComment
      | some rest => scan rest
    else if c = '"' ∨ c = '\'' then
      match _scanned : scanString c [] rest with
      | none => .error .unterminatedString
      | some (text, rest) => (scan rest).map (.str (String.ofList text) :: ·)
    else if c.isDigit then
      (scan (rest.dropWhile isNumberPart)).map
        (.num (String.ofList (c :: rest.takeWhile isNumberPart)) :: ·)
    else if isWordStart c then
      (scan (rest.dropWhile isWordPart)).map
        (.ident (String.ofList (c :: rest.takeWhile isWordPart)) :: ·)
    else if isPunct c then (scan rest).map (.punct c :: ·)
    else .error (.unexpectedCharacter c)
termination_by cs.length
decreasing_by
  all_goals simp only [List.length_cons]
  · omega
  · have := (List.dropWhile_sublist (fun c : Char => decide (c ≠ '\n')) (l := rest)).length_le
    omega
  · have := skipComment_length _skipped
    simp only [List.length_tail] at this
    omega
  · have := scanString_length _scanned
    omega
  · have := (List.dropWhile_sublist isNumberPart (l := rest)).length_le
    omega
  · have := (List.dropWhile_sublist isWordPart (l := rest)).length_le
    omega
  · omega

end Token

/-- The literal with the given digits and points, after a minus sign if `negative`. -/
def number (negative : Bool) (text : String) : Except SyntaxError Expr :=
  let cs := text.toList
  let digits := cs.filter Char.isDigit
  let magnitude := Nat.ofDigitChars 10 digits 0
  let places := ((cs.dropWhile Char.isDigit).filter Char.isDigit).length
  match cs.count '.' with
  | 0 =>
    if negative ∧ magnitude ≤ 0x8000000000000000 then .ok (.int (Int64.ofInt (-magnitude)))
    else if ¬negative ∧ magnitude < 0x8000000000000000 then .ok (.int (Int64.ofInt magnitude))
    else .ok (.float (.ofDecimal negative magnitude 0))
  | 1 => .ok (.float (.ofDecimal negative magnitude places))
  | _ => .error (.invalidNumber (if negative then "-" ++ text else text))

/-- What a production read, and the remaining tokens. -/
abbrev Parsed (α : Type) := α × List Token

def expectPunct (c : Char) (ts : List Token) : Except SyntaxError (List Token) :=
  if ts.head? = some (.punct c) then .ok ts.tail
  else .error (.expected (String.singleton c) ts.head?)

def expectWord (word : String) (ts : List Token) : Except SyntaxError (List Token) :=
  if ts.head? = some (.ident word) then .ok ts.tail else .error (.expected word ts.head?)

def identifier : List Token → Except SyntaxError (Parsed String)
  | .ident name :: rest => .ok (name, rest)
  | ts => .error (.expectedIdentifier ts.head?)

def stringLiteral : List Token → Except SyntaxError (Parsed String)
  | .str text :: rest => .ok (text, rest)
  | ts => .error (.expectedString ts.head?)

/-- A name, and the name after `as`, which is the same one when `as` is missing. -/
def nameAndAlias (ts : List Token) : Except SyntaxError (Parsed (String × String)) := do
  let (name, rest) ← identifier ts
  if rest.head? = some (.ident "as") then
    let (other, rest) ← identifier rest.tail
    return ((name, other), rest)
  else return ((name, name), rest)

def aliases : (depth : Nat) → List Token → Except SyntaxError (Parsed (List (String × String)))
  | 0, _ => .error .tooDeep
  | depth + 1, ts =>
    if ts.head? = some (.punct '\x7d') then .ok ([], ts.tail)
    else do
      let (pair, rest) ← nameAndAlias ts
      if rest.head? = some (.punct ',') then
        let (pairs, rest) ← aliases depth rest.tail
        return (pair :: pairs, rest)
      else
        let rest ← expectPunct '\x7d' rest
        return ([pair], rest)

def wordValue (word : String) : Expr :=
  if word = "null" ∨ word = "undefined" then .null
  else if word = "true" then .bool true
  else if word = "false" then .bool false
  else .ident word

def atom : List Token → Except SyntaxError (Parsed Expr)
  | .num text :: rest => do return (← number false text, rest)
  | .str text :: rest => .ok (.str text, rest)
  | .ident word :: rest => .ok (wordValue word, rest)
  | .punct c :: rest =>
    if c = '-' then
      match rest with
      | .num text :: rest => do return (← number true text, rest)
      | rest => .error (.expectedNumber rest.head?)
    else .error (.unexpectedToken (some (.punct c)))
  | [] => .error (.unexpectedToken none)

def propertyKey : List Token → Except SyntaxError (Parsed String)
  | .ident name :: rest => .ok (name, rest)
  | .str text :: rest => .ok (text, rest)
  | ts => .error (.expectedKey ts.head?)

/-- What follows a key; a key without a value stands for the name of a value. -/
def propertyValue (value : List Token → Except SyntaxError (Parsed Expr)) (key : String)
    (ts : List Token) : Except SyntaxError (Parsed Expr) :=
  if ts.head? = some (.punct ':') then value ts.tail else .ok (.ident key, ts)

def members (e : Expr) : List Token → Except SyntaxError (Parsed Expr)
  | .punct '.' :: .ident name :: rest => members (.member e name) rest
  | .punct '.' :: rest => .error (.expectedIdentifier rest.head?)
  | ts => .ok (e, ts)

mutual
def exprWithin : (depth : Nat) → List Token → Except SyntaxError (Parsed Expr)
  | 0, _ => .error .tooDeep
  | depth + 1, ts =>
    if ts.head? = some (.punct '[') then do
      let (es, rest) ← itemsWithin depth ts.tail
      members (.array es) rest
    else if ts.head? = some (.punct '\x7b') then do
      let (ps, rest) ← propertiesWithin depth ts.tail
      members (.object ps) rest
    else do
      let (e, rest) ← atom ts
      members e rest
def itemsWithin : (depth : Nat) → List Token → Except SyntaxError (Parsed (List Expr))
  | 0, _ => .error .tooDeep
  | depth + 1, ts =>
    if ts.head? = some (.punct ']') then .ok ([], ts.tail)
    else do
      let (e, rest) ← exprWithin depth ts
      if rest.head? = some (.punct ',') then
        let (es, rest) ← itemsWithin depth rest.tail
        return (e :: es, rest)
      else
        let rest ← expectPunct ']' rest
        return ([e], rest)
def propertiesWithin :
    (depth : Nat) → List Token → Except SyntaxError (Parsed (List (String × Expr)))
  | 0, _ => .error .tooDeep
  | depth + 1, ts =>
    if ts.head? = some (.punct '\x7d') then .ok ([], ts.tail)
    else do
      let (key, rest) ← propertyKey ts
      let (value, rest) ← propertyValue (exprWithin depth) key rest
      if rest.head? = some (.punct ',') then
        let (ps, rest) ← propertiesWithin depth rest.tail
        return ((key, value) :: ps, rest)
      else
        let rest ← expectPunct '\x7d' rest
        return ([(key, value)], rest)
end

def expr (ts : List Token) : Except SyntaxError (Parsed Expr) := exprWithin (2 * ts.length + 1) ts

def declaration (exported : Bool) (ts : List Token) : Except SyntaxError (Parsed Stmt) := do
  let (name, rest) ← identifier ts.tail
  let rest ← expectPunct '=' rest
  let (init, rest) ← expr rest
  return (.declare name init exported, rest)

def startsDeclaration (ts : List Token) : Bool :=
  ts.head? = some (.ident "const") || ts.head? = some (.ident "let")
    || ts.head? = some (.ident "var")

def exportStmt (ts : List Token) : Except SyntaxError (Parsed Stmt) :=
  if ts.head? = some (.ident "default") then do
    let (e, rest) ← expr ts.tail
    return (.exportDefault e, rest)
  else if ts.head? = some (.punct '\x7b') then do
    let (pairs, rest) ← aliases ts.length ts.tail
    return (.exportList pairs, rest)
  else if startsDeclaration ts then declaration true ts
  else .error (.expectedDeclaration ts.head?)

def stmt (ts : List Token) : Except SyntaxError (Parsed Stmt) :=
  if ts.head? = some (.ident "export") then exportStmt ts.tail
  else if ts.head? = some (.ident "throw") then do
    let (e, rest) ← expr ts.tail
    return (.throw e, rest)
  else if startsDeclaration ts then declaration false ts
  else do
    let (e, rest) ← expr ts
    return (.expr e, rest)

def everything (ts : List Token) : Except SyntaxError (Parsed Binding) := do
  let rest ← expectWord "as" ts.tail
  let (name, rest) ← identifier rest
  return (.everything name, rest)

def namedBinding (pair : String × String) : Binding := .named pair.1 pair.2

def bindingGroup (ts : List Token) : Except SyntaxError (Parsed (List Binding)) :=
  if ts.head? = some (.punct '*') then do
    let (b, rest) ← everything ts
    return ([b], rest)
  else do
    let rest ← expectPunct '\x7b' ts
    let (pairs, rest) ← aliases ts.length rest
    return (pairs.map namedBinding, rest)

def bindings (ts : List Token) : Except SyntaxError (Parsed (List Binding)) :=
  match ts with
  | .ident name :: rest =>
    if rest.head? = some (.punct ',') then do
      let (group, rest) ← bindingGroup rest.tail
      return (.defaultExport name :: group, rest)
    else .ok ([.defaultExport name], rest)
  | ts => bindingGroup ts

def importDecl (ts : List Token) : Except SyntaxError (Parsed Import) :=
  match ts with
  | .str specifier :: rest => .ok (⟨specifier, []⟩, rest)
  | ts => do
    let (bs, rest) ← bindings ts
    let rest ← expectWord "from" rest
    let (specifier, rest) ← stringLiteral rest
    return (⟨specifier, bs⟩, rest)

def scriptWithin : (depth : Nat) → List Token → Except SyntaxError Script
  | _, [] => .ok {}
  | 0, _ => .error .tooDeep
  | depth + 1, ts =>
    if ts.head? = some (.punct ';') then scriptWithin depth ts.tail
    else if ts.head? = some (.ident "import") then do
      let (i, rest) ← importDecl ts.tail
      let s ← scriptWithin depth rest
      return { s with imports := i :: s.imports }
    else do
      let (st, rest) ← stmt ts
      let s ← scriptWithin depth rest
      return { s with body := st :: s.body }

def ofTokens (ts : List Token) : Except SyntaxError Script := scriptWithin ts.length ts

def parse (source : String) : Except SyntaxError Script := Token.scan source.toList >>= ofTokens

end CodeCache.Script
