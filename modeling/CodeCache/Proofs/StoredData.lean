import CodeCache.Proofs.OwnBlobs
import CodeCache.Proofs.Packages
import CodeCache.Proofs.Rendering

/-! # Stored data

Data is what can be written down as a literal and read back: null, truth values, integers of 64
bits, strings, and arrays and objects of such values. Its literal has no blanks, its keys are
quoted, and in quotes only the quote, the backslash and the line break are escaped. A source that
exports a literal is the script that exports the value, and a script that imports nothing is loaded
whatever the storage, the packages and the engine hold. So data that is exported by a source comes
back from its blob. -/

namespace CodeCache

open Script (Token)

namespace Value

mutual
/-- Integers are in range, there are no doubles, and the keys of an object are different. -/
def isData : Value → Bool
  | .null | .bool _ | .str _ => true
  | .int i => decide (-0x8000000000000000 ≤ i ∧ i < 0x8000000000000000)
  | .float _ => false
  | .array vs => itemsAreData vs
  | .object es => decide (Entries.keys es).Nodup && entriesAreData es
def itemsAreData : List Value → Bool
  | [] => true
  | v :: vs => isData v && itemsAreData vs
def entriesAreData : List (String × Value) → Bool
  | [] => true
  | (_, v) :: es => isData v && entriesAreData es
end

def separator {α β : Type} (mark : β) : List α → List β
  | [] => []
  | _ :: _ => [mark]

mutual
def literal : Value → List Char
  | .null => "null".toList
  | .bool b => (if b then "true" else "false").toList
  | .int i => if i < 0 then '-' :: Nat.toDigits 10 i.natAbs else Nat.toDigits 10 i.natAbs
  | .float _ => []
  | .str s => '"' :: (s.toList.flatMap Script.escape ++ ['"'])
  | .array vs => '[' :: (itemLiterals vs ++ [']'])
  | .object es => '\x7b' :: (entryLiterals es ++ ['\x7d'])
def itemLiterals : List Value → List Char
  | [] => []
  | v :: vs => literal v ++ (separator ',' vs ++ itemLiterals vs)
def entryLiterals : List (String × Value) → List Char
  | [] => []
  | (key, v) :: es =>
    '"' :: (key.toList.flatMap Script.escape ++ ['"']) ++
      ':' :: (literal v ++ (separator ',' es ++ entryLiterals es))
end

mutual
def tokens : Value → List Token
  | .null => [.ident "null"]
  | .bool b => [.ident (if b then "true" else "false")]
  | .int i =>
    if i < 0 then [.punct '-', .num (Script.digits i.natAbs)] else [.num (Script.digits i.natAbs)]
  | .float _ => []
  | .str s => [.str s]
  | .array vs => .punct '[' :: (itemTokens vs ++ [.punct ']'])
  | .object es => .punct '\x7b' :: (entryTokens es ++ [.punct '\x7d'])
def itemTokens : List Value → List Token
  | [] => []
  | v :: vs => tokens v ++ (separator (.punct ',') vs ++ itemTokens vs)
def entryTokens : List (String × Value) → List Token
  | [] => []
  | (key, v) :: es =>
    .str key :: .punct ':' :: (tokens v ++ (separator (.punct ',') es ++ entryTokens es))
end

mutual
def toExpr : Value → Expr
  | .null => .null
  | .bool b => .bool b
  | .int i => .int (Int64.ofInt i)
  | .float x => .float x
  | .str s => .str s
  | .array vs => .array (itemExprs vs)
  | .object es => .object (entryExprs es)
def itemExprs : List Value → List Expr
  | [] => []
  | v :: vs => toExpr v :: itemExprs vs
def entryExprs : List (String × Value) → List (String × Expr)
  | [] => []
  | (key, v) :: es => (key, toExpr v) :: entryExprs es
end

def exportText (v : Value) : String := "export default " ++ String.ofList v.literal ++ ";"

/-- Before the rest, the characters are scanned as the tokens. -/
def Scans (cs : List Char) (ts : List Token) (rest : List Char) : Prop :=
  Token.scan (cs ++ rest) = (Token.scan rest).map (ts ++ ·)

variable {cs ds rest : List Char} {ts us : List Token}

theorem Scans.nil (rest : List Char) : Scans [] [] rest := by
  rw [Scans, List.nil_append]
  cases Token.scan rest <;> rfl

theorem Scans.append (h : Scans cs ts (ds ++ rest)) (k : Scans ds us rest) :
    Scans (cs ++ ds) (ts ++ us) rest := by
  rw [Scans] at *
  rw [List.append_assoc, h, k]
  cases Token.scan rest with
  | error e => rfl
  | ok others => simp [Except.map]

theorem Scans.token {t : Token} (h : t.isWritable) (stop : t.Stops rest) : Scans t.spell [t] rest :=
  Script.scan_spell h stop

theorem Scans.punct {c : Char} (h : Token.isPunct c) (rest : List Char) :
    Scans [c] [.punct c] rest := Script.scan_punct h rest

theorem Scans.after {c : Char} (h : Token.isPunct c) (k : Scans ds us rest) :
    Scans (c :: ds) (.punct c :: us) rest :=
  (Scans.punct h (ds ++ rest)).append k

theorem Scans.str (s : String) (rest : List Char) :
    Scans ('"' :: (s.toList.flatMap Script.escape ++ ['"'])) [.str s] rest :=
  Script.scan_str s rest

def Ends (rest : List Char) : Prop :=
  ∀ c, rest.head? = some c → c ∈ [',', ']', '\x7d', ';']

theorem ends_cons {c : Char} (h : c ∈ [',', ']', '\x7d', ';']) (rest : List Char) :
    Ends (c :: rest) := by
  rintro _ ⟨⟩
  exact h

theorem Ends.stops (h : Ends rest) (t : Token) : t.Stops rest := by
  have table : [',', ']', '\x7d', ';'].all fun c =>
      !Token.isWordPart c && !Token.isNumberPart c := by decide
  have apart (c : Char) (head : rest.head? = some c) :
      Token.isWordPart c = false ∧ Token.isNumberPart c = false := by
    simpa using List.all_eq_true.1 table c (h c head)
  cases t with
  | ident => exact fun c head => (apart c head).1
  | num => exact fun c head => (apart c head).2
  | str | punct => trivial

theorem Scans.separator {α : Type} (xs : List α) (rest : List Char) :
    Scans (separator ',' xs) (Value.separator (.punct ',') xs) rest := by
  cases xs with
  | nil => exact .nil rest
  | cons x xs => exact .punct (by decide) rest

theorem ends_separator {α : Type} (xs : List α) (others : List Char)
    (none : xs = [] → others = []) (stop : Ends rest) :
    Ends (separator ',' xs ++ others ++ rest) := by
  cases xs with
  | nil =>
    rw [none rfl]
    exact stop
  | cons x xs => exact ends_cons (by decide) _

theorem Scans.digits (n : Nat) (stop : Ends rest) :
    Scans (Nat.toDigits 10 n) [.num (Script.digits n)] rest := by
  have scanned := Scans.token (Script.writable_digits n) (stop.stops _)
  rwa [Token.spell, Script.toList_digits] at scanned

mutual
theorem scans_literal {v : Value} (data : v.isData) {rest : List Char} (stop : Ends rest) :
    Scans v.literal v.tokens rest := by
  match v with
  | .null => exact .token (t := .ident "null") (by decide) (stop.stops _)
  | .bool b =>
    refine .token (t := .ident (if b then "true" else "false")) ?_ (stop.stops _)
    cases b <;> decide
  | .int i =>
    rw [literal, tokens]
    split
    · exact .after (by decide) (.digits _ stop)
    · exact .digits _ stop
  | .float x => cases data
  | .str s => exact .str s rest
  | .array vs =>
    refine .after (by decide) ?_
    exact .append (scans_items data (ends_cons (by decide) _)) (.punct (by decide) rest)
  | .object es =>
    simp only [isData, Bool.and_eq_true] at data
    refine .after (by decide) ?_
    exact .append (scans_entries data.2 (ends_cons (by decide) _)) (.punct (by decide) rest)
theorem scans_items {vs : List Value} (data : itemsAreData vs) {rest : List Char}
    (stop : Ends rest) : Scans (itemLiterals vs) (itemTokens vs) rest := by
  match vs with
  | [] => exact .nil rest
  | v :: vs =>
    simp only [itemsAreData, Bool.and_eq_true] at data
    have after := ends_separator vs (itemLiterals vs) (by rintro rfl; rfl) stop
    rw [itemLiterals, itemTokens]
    refine .append (scans_literal data.1 after) ?_
    exact .append (.separator vs _) (scans_items data.2 stop)
theorem scans_entries {es : List (String × Value)} (data : entriesAreData es) {rest : List Char}
    (stop : Ends rest) : Scans (entryLiterals es) (entryTokens es) rest := by
  match es with
  | [] => exact .nil rest
  | (key, v) :: es =>
    simp only [entriesAreData, Bool.and_eq_true] at data
    have after := ends_separator es (entryLiterals es) (by rintro rfl; rfl) stop
    rw [entryLiterals, entryTokens]
    refine (Scans.str key _).append (.after (by decide) ?_)
    refine .append (scans_literal data.1 after) ?_
    exact .append (.separator es _) (scans_entries data.2 stop)
end

variable {depth : Nat} {after : List Token}

theorem length_tokens_pos {v : Value} (data : v.isData) : 0 < v.tokens.length := by
  cases v with
  | float => cases data
  | int i =>
    rw [tokens]
    split <;> simp
  | null | bool | str | array | object => simp [tokens]

theorem toInt_ofInt {i : Int} (data : (Value.int i).isData) : (Int64.ofInt i).toInt = i := by
  simp only [isData, decide_eq_true_eq] at data
  exact Int64.toInt_ofInt_of_le data.1 data.2

theorem tokens_int {i : Int} (data : (Value.int i).isData) :
    tokens (.int i) = Script.intTokens (Int64.ofInt i) := by
  rw [tokens, Script.intTokens, toInt_ofInt data]

theorem members_separator {α : Type} (e : Expr) {close : Char} (mark : close ≠ '.') (xs : List α)
    {others : List Token} (none : xs = [] → others = []) :
    Script.members e (separator (.punct ',') xs ++ (others ++ .punct close :: after)) =
      .ok (e, separator (.punct ',') xs ++ (others ++ .punct close :: after)) := by
  cases xs with
  | nil =>
    rw [none rfl]
    exact Script.members_stop mark
  | cons x xs => exact Script.members_stop (by decide)

theorem listStep_separator {α β : Type} {close : Char}
    {part : List Token → Except Script.SyntaxError (Script.Parsed α)}
    {again : List Token → Except Script.SyntaxError (Script.Parsed (List α))} {x : α}
    {xs : List α} {ys : List β} {others : List Token} (noComma : close ≠ ',')
    (notClosed : ts.head? ≠ some (.punct close)) (none : ys = [] → others = [] ∧ xs = [])
    (first : part ts =
      .ok (x, separator (.punct ',') ys ++ (others ++ .punct close :: after)))
    (rest : again (others ++ .punct close :: after) = .ok (xs, after)) :
    Script.listStep close part again ts = .ok (x :: xs, after) := by
  cases ys with
  | nil =>
    obtain ⟨rfl, rfl⟩ := none rfl
    exact Script.listStep_last notClosed noComma first
  | cons y ys => exact Script.listStep_more notClosed first rest

mutual
theorem exprWithin_tokens {v : Value} (data : v.isData) {depth : Nat}
    (deep : 2 * v.tokens.length ≤ depth) (after : List Token) :
    Script.exprWithin depth (v.tokens ++ after) = Script.members v.toExpr after := by
  have room := length_tokens_pos data
  match v with
  | .null => exact Script.exprWithin_of_atom rfl (by omega)
  | .bool b =>
    refine Script.exprWithin_of_atom ?_ (by omega)
    cases b <;> rfl
  | .int i =>
    refine Script.exprWithin_of_atom ?_ (by omega)
    rw [tokens_int data]
    exact Script.atom_intTokens _ after
  | .float x => cases data
  | .str s => exact Script.exprWithin_of_atom rfl (by omega)
  | .array vs =>
    simp only [tokens, List.length_cons, List.length_append, List.length_nil] at deep
    obtain ⟨depth, rfl⟩ := Nat.exists_eq_add_one.2 (show 0 < depth by omega)
    rw [tokens, List.cons_append, List.append_assoc]
    exact Script.exprWithin_array (itemsWithin_tokens data (by omega) after)
  | .object es =>
    simp only [isData, Bool.and_eq_true] at data
    simp only [tokens, List.length_cons, List.length_append, List.length_nil] at deep
    obtain ⟨depth, rfl⟩ := Nat.exists_eq_add_one.2 (show 0 < depth by omega)
    rw [tokens, List.cons_append, List.append_assoc]
    exact Script.exprWithin_object (propertiesWithin_tokens data.2 (by omega) after)
theorem itemsWithin_tokens {vs : List Value} (data : itemsAreData vs) {depth : Nat}
    (deep : 2 * (itemTokens vs).length < depth) (after : List Token) :
    Script.itemsWithin depth (itemTokens vs ++ .punct ']' :: after) =
      .ok (itemExprs vs, after) := by
  obtain ⟨depth, rfl⟩ := Nat.exists_eq_add_one.2 (show 0 < depth by omega)
  match vs with
  | [] => rfl
  | v :: vs =>
    simp only [itemsAreData, Bool.and_eq_true] at data
    simp only [itemTokens, List.length_append] at deep
    have room := length_tokens_pos data.1
    have others := itemsWithin_tokens data.2 (show _ < depth by omega) after
    have first : Script.exprWithin depth (itemTokens (v :: vs) ++ .punct ']' :: after) =
        .ok (v.toExpr, separator (.punct ',') vs ++ (itemTokens vs ++ .punct ']' :: after)) := by
      rw [itemTokens, List.append_assoc, List.append_assoc,
        exprWithin_tokens data.1 (by omega),
        members_separator _ (by decide) vs (by rintro rfl; rfl)]
    rw [Script.itemsWithin_succ]
    refine listStep_separator (by decide) ?_ (by rintro rfl; exact ⟨rfl, rfl⟩) first others
    exact fun head => absurd ((Script.head_of_exprWithin first).1 _ head) (by decide)
theorem propertiesWithin_tokens {es : List (String × Value)} (data : entriesAreData es)
    {depth : Nat} (deep : 2 * (entryTokens es).length < depth) (after : List Token) :
    Script.propertiesWithin depth (entryTokens es ++ .punct '}' :: after) =
      .ok (entryExprs es, after) := by
  obtain ⟨depth, rfl⟩ := Nat.exists_eq_add_one.2 (show 0 < depth by omega)
  match es with
  | [] => rfl
  | (key, v) :: es =>
    simp only [entriesAreData, Bool.and_eq_true] at data
    simp only [entryTokens, List.length_cons, List.length_append] at deep
    have others := propertiesWithin_tokens data.2 (show _ < depth by omega) after
    have value : Script.propertyValue (Script.exprWithin depth) key
        (.punct ':' :: (v.tokens ++ (separator (.punct ',') es ++
          (entryTokens es ++ .punct '}' :: after)))) =
        .ok (v.toExpr,
          separator (.punct ',') es ++ (entryTokens es ++ .punct '}' :: after)) := by
      rw [Script.propertyValue, List.head?_cons, if_pos rfl, List.tail_cons,
        exprWithin_tokens data.1 (by omega),
        members_separator _ (by decide) es (by rintro rfl; rfl)]
    rw [Script.propertiesWithin_succ, entryTokens, List.cons_append, List.cons_append,
      List.append_assoc, List.append_assoc]
    exact listStep_separator (by decide) (by simp) (by rintro rfl; exact ⟨rfl, rfl⟩)
      (Script.property_str value) others
end

mutual
theorem eval_toExpr {v : Value} (data : v.isData) (scope : Scope) :
    v.toExpr.eval scope = .ok v := by
  match v with
  | .null | .bool _ | .str _ => rfl
  | .int i =>
    rw [toExpr, Expr.eval, toInt_ofInt data]
  | .float x => cases data
  | .array vs =>
    rw [toExpr, Expr.eval, evalItems_itemExprs data scope]
    rfl
  | .object es =>
    simp only [isData, Bool.and_eq_true, decide_eq_true_eq] at data
    have kept : Entries.insertAll [] es = es := Entries.insertAll_of_nodup data.1
    rw [toExpr, Expr.eval, evalProperties_entryExprs data.2 scope [], kept]
    rfl
theorem evalItems_itemExprs {vs : List Value} (data : itemsAreData vs) (scope : Scope) :
    Expr.evalItems scope (itemExprs vs) = .ok vs := by
  match vs with
  | [] => rfl
  | v :: vs =>
    simp only [itemsAreData, Bool.and_eq_true] at data
    rw [itemExprs, Expr.evalItems, eval_toExpr data.1 scope, evalItems_itemExprs data.2 scope]
    rfl
theorem evalProperties_entryExprs {es : List (String × Value)} (data : entriesAreData es)
    (scope : Scope) (done : Fields) :
    Expr.evalProperties scope done (entryExprs es) = .ok (Entries.insertAll done es) := by
  match es with
  | [] => rfl
  | (key, v) :: es =>
    simp only [entriesAreData, Bool.and_eq_true] at data
    rw [entryExprs, Expr.evalProperties, eval_toExpr data.1 scope]
    exact evalProperties_entryExprs data.2 scope (Entries.insert done key v)
end

theorem scans_exportDefault (rest : List Char) :
    Scans "export default ".toList [.ident "export", .ident "default"] rest := by
  show Token.scan ("export".toList ++ ' ' :: ("default".toList ++ ' ' :: rest)) = _
  have first := Script.scan_spell (t := .ident "export") (by decide)
    (Script.stops_space _ ("default".toList ++ ' ' :: rest))
  have second := Script.scan_spell (t := .ident "default") (by decide) (Script.stops_space _ rest)
  rw [Token.spell] at first second
  rw [first, Script.scan_space, second, Script.scan_space]
  cases Token.scan rest <;> rfl

theorem scan_exportText {v : Value} (data : v.isData) :
    Token.scan v.exportText.toList =
      .ok (.ident "export" :: .ident "default" :: (v.tokens ++ [.punct ';'])) := by
  have text : v.exportText.toList = "export default ".toList ++ (v.literal ++ [';']) ++ [] := by
    simp [exportText]
  have scanned : Scans ("export default ".toList ++ (v.literal ++ [';'])) _ [] :=
    (scans_exportDefault _).append
      ((scans_literal data (ends_cons (by decide) _)).append (.punct (by decide) []))
  rw [text, scanned, Token.scan]
  simp [Except.map]

theorem parse_exportText {v : Value} (data : v.isData) :
    Script.parse v.exportText = .ok { body := [.exportDefault v.toExpr] } := by
  have value : Script.expr (v.tokens ++ [.punct ';']) = .ok (v.toExpr, [.punct ';']) := by
    rw [Script.expr, exprWithin_tokens data (by simp; omega), Script.members_stop (by decide)]
  have first : Script.stmt (.ident "export" :: .ident "default" :: (v.tokens ++ [.punct ';'])) =
      .ok (.exportDefault v.toExpr, [.punct ';']) := by
    simp only [Script.stmt, Script.exportStmt, List.head?_cons, if_true, List.tail_cons, value]
    rfl
  have last (depth : Nat) : Script.scriptWithin (depth + 1) [.punct ';'] = .ok {} := by
    rw [Script.scriptWithin_semicolon, Script.scriptWithin]
  rw [Script.parse, scan_exportText data]
  show Script.scriptWithin _ _ = _
  rw [List.length_cons, List.length_cons, Script.scriptWithin, if_neg (by simp), if_neg (by simp),
    first]
  · simp only [Bind.bind, Except.bind, last]
    rfl
  · simp

end Value

end CodeCache

namespace CodeCache

namespace State

variable {resolve : Resolver} {s : State} {id : ModuleId} {r : ModuleRecord} {script : Script}
  {exports : Fields}

theorem link_of_alone (resolve : Resolver) (found : s.modules[id]? = some r)
    (status : r.status = .unlinked) (alone : r.body.specifiers = []) :
    ∃ t, (link resolve id).run s = (.ok (), t) ∧ t.contexts = s.contexts ∧
      t.modules[id]? = some { r with deps := [], status := .linked } := by
  obtain ⟨t, run, only, found'⟩ := run_linkWithin_of_alone
    (s := { s with events := s.events ++ [.link id] }) resolve (s.modules.length + 1) [] found
    status alone
  exact ⟨t, (run_link resolve id s).trans (Action.run_bind_ok run), only.contexts, found'⟩

end State

namespace Loader

variable {l : Loader} {origin : BlobOrigin} {blob : Bytes} {script : Script} {exports : Fields}

theorem runNamespace_of_alone (gives : origin.Gives l blob)
    (decoded : l.decodeBlob origin.stored blob = .ok script) (alone : script.specifiers = [])
    (context : Option String) (s : State)
    (ran : script.run (s.globals context) (gathered []) = .ok exports) :
    ((l.runNamespace context origin).run s).1 = .ok exports := by
  obtain ⟨depth, shape⟩ := run_of_gives gives context
  obtain ⟨t, opened, keeps, record⟩ := openBlob_of_ok decoded context s
  obtain ⟨u, linked, contexts, own⟩ := State.link_of_alone
    (l.resolveImport (l.runPathWithin depth origin.stored.toList)) record rfl alone
  have ran' : script.run (u.globals context) (gathered []) = .ok exports := by
    rw [State.globals_congr contexts, keeps.globals]
    exact ran
  obtain ⟨w, r, evaluated, _, own', exported⟩ := State.evaluate_of_ok own rfl rfl .nil ran'
  rw [runNamespace, shape, bind_assoc, Action.run_bind_ok opened, finish, bind_assoc,
    Action.run_bind_ok linked, bind_assoc, Action.run_bind_ok evaluated, pure_bind,
    State.run_namespaceOf_of_exports own' exported]

end Loader

theorem Script.run_exportDefault {globals : Scope} {e : Expr} {v : Value}
    {exportsOf : String → Except LoadError Fields} (value : ∀ scope, e.eval scope = .ok v) :
    Script.run globals exportsOf { body := [.exportDefault e] } = .ok [("default", v)] := by
  have first (f : Frame) : runStmt globals f (.exportDefault e) =
      .ok { f with exports := f.exports.insert "default" v } := by
    rw [runStmt, evaluated, value]
    rfl
  show runBody globals [] [.exportDefault e] = _
  rw [runBody, List.foldlM_cons, first]
  rfl

namespace Loader

theorem one_lt_units16_exportText (v : Value) : 1 < Text.units16 v.exportText := by
  have start : Text.units16 "export default " = 15 := by decide
  rw [Value.exportText, Text.units16_append, Text.units16_append, start]
  omega

/-- Data that is exported by a source comes back from the blob of the source, compiled by any build
and given as bytes or read from a file, as the only export of its module. -/
theorem run_data {l : Loader} {version : String} {number : UInt64} {v : Version}
    (hb : l.build = .ofVersion version number) (hv : Version.parse? version = some v)
    (default : l.config = {}) {value : Value} (data : value.isData)
    (small : Text.units16 value.exportText ≤ Header.maxSourceLength.toNat) (producer : Build) :
    ∃ blob, producer.compile value.exportText = .ok blob ∧
      ∀ origin : BlobOrigin, origin.Gives l blob → ∀ context s,
        ((l.runNamespace context origin).run s).1 = .ok [("default", value)] := by
  have parsed := Value.parse_exportText data
  refine ⟨_, producer.compile_eq parsed, ?_⟩
  intro origin gives context s
  have decoded := decodeBlob_default hb hv default parsed small producer.fingerprint origin.stored
  have long : Text.units16 value.exportText ≠ 1 :=
    Nat.ne_of_gt (one_lt_units16_exportText value)
  rw [if_neg long] at decoded
  exact runNamespace_of_alone gives decoded rfl context s
    (Script.run_exportDefault (Value.eval_toExpr data))

def inventory : Value := .object [
  ("b", .array [.null, .int (-9223372036854775808), .bool true]),
  ("a\n", .object [("\"", .str "π\\"), ("", .array [])])]

theorem run_data_inventory :
    inventory.isData ∧
      inventory.exportText = "export default \x7b\"b\":[null,-9223372036854775808,true]," ++
        "\"a\\n\":\x7b\"\\\"\":\"π\\\\\",\"\":[]\x7d\x7d;" ∧
      ∃ blob, (plain 1).build.compile inventory.exportText = .ok blob ∧
        (((plain 1).runNamespace (some "page") (.bytes blob)).run {}).1 =
          .ok [("default", inventory)] := by
  have data : inventory.isData := by decide
  have text : inventory.exportText = "export default \x7b\"b\":[null,-9223372036854775808,true]," ++
      "\"a\\n\":\x7b\"\\\"\":\"π\\\\\",\"\":[]\x7d\x7d;" := by decide +kernel
  have small : Text.units16 inventory.exportText ≤ Header.maxSourceLength.toNat := by
    rw [text]
    decide
  obtain ⟨blob, compiled, runs⟩ :=
    run_data (l := plain 1) rfl (plain_version 1) rfl data small (plain 1).build
  exact ⟨data, text, blob, compiled, runs (.bytes blob) rfl (some "page") {}⟩

end Loader

end CodeCache
