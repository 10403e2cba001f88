import CodeCache.Engine.State
import CodeCache.Proofs.Computation
import CodeCache.Proofs.Payload
import CodeCache.Proofs.Productions

/-! # How large a payload gets

The payload of a script is at most a fixed multiple of its source. Tokens get weights: every
production takes at least as much weight off the tokens as what it read takes bytes, and scanning
makes at most 72 units of weight of a character. A source that an engine string can hold therefore
has a payload that is read back. -/

namespace CodeCache.Script

/-- Bytes that a token can account for. A name may be written twice, each time after its length. -/
def Token.weight : Token → Nat
  | .ident s | .str s => 64 + 2 * (Text.Utf8.encode s).length
  | .num _ | .punct _ => 64

def weigh : List Token → Nat
  | [] => 0
  | t :: ts => t.weight + weigh ts

theorem length_utf8_le (cs : List Char) :
    (Text.Utf8.encode (String.ofList cs)).length ≤ 4 * cs.length := by
  rw [Text.Utf8.encode, String.toList_ofList]
  induction cs with
  | nil => exact Nat.le_refl _
  | cons c cs ih =>
    have width := c.utf8Size_le_four
    rw [List.flatMap_cons, List.length_append, String.length_utf8EncodeChar, List.length_cons]
    omega

theorem length_takeWhile_dropWhile (p : Char → Bool) (cs : List Char) :
    (cs.takeWhile p).length + (cs.dropWhile p).length = cs.length := by
  rw [← List.length_append, List.takeWhile_append_dropWhile]

theorem length_scanString {quote : Char} {done cs text rest : List Char}
    (h : Token.scanString quote done cs = some (text, rest)) :
    text.length + rest.length ≤ done.length + cs.length := by
  fun_induction Token.scanString quote done cs with
  | case1 => cases h
  | case2 => cases h
  | case3 => cases h; simp only [List.length_reverse, List.length_cons]; omega
  | case4 => cases h
  | case5 done e rest _ _ ih =>
    have := ih h
    simp only [List.length_cons] at *
    omega
  | case6 done c rest _ _ _ ih =>
    have := ih h
    simp only [List.length_cons] at *
    omega

theorem weigh_scan {cs : List Char} {ts : List Token} (h : Token.scan cs = .ok ts) :
    weigh ts ≤ 72 * cs.length := by
  fun_induction Token.scan cs generalizing ts with
  | case1 => cases h; exact Nat.le_refl 0
  | case2 c rest _ ih =>
    have := ih h
    simp only [List.length_cons]
    omega
  | case3 c rest _ _ ih =>
    have := ih h
    have := (List.dropWhile_sublist (fun c : Char => decide (c ≠ '\n')) (l := rest)).length_le
    simp only [List.length_cons]
    omega
  | case4 => cases h
  | case5 c rest _ _ _ after skipped ih =>
    have := ih h
    have := Token.skipComment_length skipped
    simp only [List.length_cons, List.length_tail] at *
    omega
  | case6 => cases h
  | case7 c rest _ _ _ _ text after scanned ih =>
    obtain ⟨us, hu, rfl⟩ := map_eq_ok.1 h
    have := ih hu
    have := length_scanString scanned
    have := length_utf8_le text
    simp only [weigh, Token.weight, List.length_cons, List.length_nil] at *
    omega
  | case8 c rest _ _ _ _ _ ih =>
    obtain ⟨us, hu, rfl⟩ := map_eq_ok.1 h
    have := ih hu
    have := length_takeWhile_dropWhile Token.isNumberPart rest
    simp only [weigh, Token.weight, List.length_cons] at *
    omega
  | case9 c rest _ _ _ _ _ _ ih =>
    obtain ⟨us, hu, rfl⟩ := map_eq_ok.1 h
    have := ih hu
    have := length_takeWhile_dropWhile Token.isWordPart rest
    have := length_utf8_le (c :: rest.takeWhile Token.isWordPart)
    simp only [weigh, Token.weight, List.length_cons] at *
    omega
  | case10 c rest _ _ _ _ _ _ _ ih =>
    obtain ⟨us, hu, rfl⟩ := map_eq_ok.1 h
    have := ih hu
    simp only [weigh, Token.weight, List.length_cons] at *
    omega
  | case11 => cases h

section

variable {α : Type} {ts rest : List Token}

/-- The tokens taken by a production outweigh the cost of what it read. -/
def Takes (production : List Token → Except SyntaxError (Parsed α)) (cost : α → Nat) : Prop :=
  ∀ ts x rest, production ts = .ok (x, rest) → cost x + weigh rest ≤ weigh ts

theorem Takes.le {production : List Token → Except SyntaxError (Parsed α)} {cost : α → Nat} {x : α}
    (takes : Takes production cost) (h : production ts = .ok (x, rest)) :
    cost x + weigh rest ≤ weigh ts := takes ts x rest h

/-- A list costs the bytes of its parts when each part is worth its own. -/
theorem ListForm.weigh_le {encode : α → Bytes} {close : Char}
    {part : List Token → Except SyntaxError (Parsed α)}
    {again : List Token → Except SyntaxError (Parsed (List α))} {xs : List α}
    (form : ListForm close part again ts xs rest)
    (takes_part : Takes part fun x => (encode x).length)
    (takes_again : Takes again fun xs => (xs.flatMap encode).length) :
    (xs.flatMap encode).length + weigh rest ≤ weigh ts := by
  cases form with
  | done => simp [weigh]
  | last part_ok =>
    have first := takes_part.le part_ok
    simp only [List.flatMap_cons, List.flatMap_nil, List.append_nil, weigh] at *
    omega
  | more part_ok again_ok =>
    have first := takes_part.le part_ok
    have others := takes_again.le again_ok
    simp only [List.flatMap_cons, List.length_append, weigh] at *
    omega

theorem takes_identifier : Takes identifier fun s => 48 + 2 * (Payload.text s).length := by
  intro ts name rest h
  rw [identifier_eq_ok.1 h]
  simp only [weigh, Token.weight, Payload.length_text]
  omega

theorem takes_propertyKey : Takes propertyKey fun s => 48 + 2 * (Payload.text s).length := by
  intro ts key rest h
  rcases propertyKey_eq_ok.1 h with rfl | rfl
  · exact takes_identifier _ _ _ rfl
  · simp only [weigh, Token.weight, Payload.length_text]
    omega

/-- The bytes of a name and its alias, with room for the number of an alternative. -/
theorem takes_nameAndAlias :
    Takes nameAndAlias fun pair => (Payload.binding (namedBinding pair)).length := by
  intro ts pair rest h
  cases nameAndAlias_form h with
  | alone =>
    simp only [namedBinding, Payload.binding, List.length_append, Payload.length_tag,
      Payload.length_text, weigh, Token.weight]
    omega
  | renamed =>
    simp only [namedBinding, Payload.binding, List.length_append, Payload.length_tag,
      Payload.length_text, weigh, Token.weight]
    omega

theorem takes_aliases (depth : Nat) :
    Takes (aliases depth) fun pairs =>
      (pairs.flatMap fun pair => Payload.binding (namedBinding pair)).length := by
  induction depth with
  | zero => intro ts pairs rest h; cases h
  | succ depth ih => exact fun _ _ _ h => (aliases_form h).weigh_le takes_nameAndAlias ih

/-- What an expression costs: its bytes, and some to spare for the statement it stands in. -/
def exprCost (e : Expr) : Nat := 16 + (Payload.expr e).length

theorem number_cost {negative : Bool} {text : String} {e : Expr}
    (h : number negative text = .ok e) : exprCost e ≤ 64 := by
  rcases number_eq_ok h with ⟨i, rfl⟩ | ⟨digits, places, rfl⟩
  · simp only [exprCost, Payload.expr, List.length_append, Payload.length_tag, Bytes.length_ofNat]
    decide
  · simp only [exprCost, Payload.expr, List.length_append, Payload.length_tag, Bytes.length_ofNat]
    decide

theorem wordValue_cost (word : String) :
    exprCost (wordValue word) ≤ 28 + (Text.Utf8.encode word).length := by
  have ident : exprCost (.ident word) ≤ 28 + (Text.Utf8.encode word).length := by
    simp only [exprCost, Payload.expr, List.length_append, Payload.length_tag, Payload.length_text]
    omega
  unfold wordValue
  split
  · exact Nat.le_add_right_of_le (by decide)
  split
  · exact Nat.le_add_right_of_le (by decide)
  split
  · exact Nat.le_add_right_of_le (by decide)
  · exact ident

theorem AtomForm.weigh_le {e : Expr} (form : AtomForm ts e rest) :
    exprCost e + weigh rest ≤ weigh ts := by
  cases form with
  | number number_ok =>
    have small := number_cost number_ok
    simp only [weigh, Token.weight]
    omega
  | negative number_ok =>
    have small := number_cost number_ok
    simp only [weigh, Token.weight]
    omega
  | str =>
    simp only [weigh, Token.weight, exprCost, Payload.expr, List.length_append, Payload.length_tag,
      Payload.length_text]
    omega
  | @word word =>
    have small := wordValue_cost word
    simp only [weigh, Token.weight]
    omega

theorem MembersForm.weigh_le {target e : Expr} (form : MembersForm target ts e rest) :
    exprCost e + weigh rest ≤ exprCost target + weigh ts := by
  induction form with
  | done => exact Nat.le_refl _
  | key _ ih =>
    simp only [exprCost, Payload.expr, List.length_append, Payload.length_tag, Payload.length_text,
      weigh, Token.weight] at *
    omega

theorem OperandForm.weigh_le {depth : Nat} {e : Expr} (form : OperandForm depth ts e rest)
    (takes_items : Takes (itemsWithin depth) fun es => (es.flatMap Payload.expr).length)
    (takes_properties : Takes (propertiesWithin depth) fun ps =>
      (ps.flatMap Payload.property).length) :
    exprCost e + weigh rest ≤ weigh ts := by
  cases form with
  | array items_ok =>
    have items := takes_items.le items_ok
    simp only [exprCost, Payload.expr_array, List.length_append, Payload.length_tag,
      Payload.length_list, weigh, Token.weight]
    omega
  | object properties_ok =>
    have properties := takes_properties.le properties_ok
    simp only [exprCost, Payload.expr_object, List.length_append, Payload.length_tag,
      Payload.length_list, weigh, Token.weight]
    omega
  | atom form => exact form.weigh_le

theorem takes_property {value : List Token → Except SyntaxError (Parsed Expr)}
    (takes_value : Takes value exprCost) :
    Takes (property value) fun p => (Payload.property p).length := by
  intro ts p rest h
  cases property_form h with
  | shorthand key_ok =>
    have key := takes_propertyKey.le key_ok
    simp only [Payload.property, Payload.expr, List.length_append, Payload.length_tag] at *
    omega
  | full key_ok value_ok =>
    have key := takes_propertyKey.le key_ok
    have value := takes_value.le value_ok
    simp only [Payload.property, List.length_append, exprCost, weigh] at *
    omega

/-- By induction on the bound: an expression, items and properties each contain the others one level
further down. -/
theorem takes_nested (depth : Nat) :
    Takes (exprWithin depth) exprCost ∧
      (Takes (itemsWithin depth) fun es => (es.flatMap Payload.expr).length) ∧
      Takes (propertiesWithin depth) fun ps => (ps.flatMap Payload.property).length := by
  induction depth with
  | zero =>
    refine ⟨?_, ?_, ?_⟩
    · intro ts e rest h; cases h
    · intro ts es rest h; cases h
    · intro ts ps rest h; cases h
  | succ depth ih =>
    obtain ⟨takes_expr, takes_items, takes_properties⟩ := ih
    have takes_item : Takes (exprWithin depth) fun e => (Payload.expr e).length := by
      intro ts e rest h
      have whole := takes_expr.le h
      simp only [exprCost] at *
      omega
    refine ⟨?_, ?_, ?_⟩
    · intro ts e rest h
      obtain ⟨operand, after, form, last⟩ := exprWithin_form h
      have first := form.weigh_le takes_items takes_properties
      have last := last.weigh_le
      omega
    · exact fun _ _ _ h => (itemsWithin_form h).weigh_le takes_item takes_items
    · exact fun _ _ _ h =>
        (propertiesWithin_form h).weigh_le (takes_property takes_expr) takes_properties

theorem takes_expr : Takes expr exprCost := fun _ _ _ h => (takes_nested _).1 _ _ _ h

theorem pairs_le_bindings (ps : List (String × String)) :
    (ps.flatMap Payload.pair).length ≤
      (ps.flatMap fun p => Payload.binding (namedBinding p)).length := by
  induction ps with
  | nil => exact Nat.le_refl _
  | cons p ps ih =>
    simp only [List.flatMap_cons, List.length_append, namedBinding, Payload.binding, Payload.pair,
      Payload.length_tag] at *
    omega

theorem DeclarationForm.weigh_le {name : String} {e : Expr} (form : DeclarationForm ts name e rest)
    (exported : Bool) :
    (Payload.stmt (.declare name e exported)).length + weigh rest ≤ weigh ts := by
  cases form with
  | intro declaring value_ok =>
    have value := takes_expr.le value_ok
    simp only [Payload.stmt, List.length_append, Payload.length_tag, Payload.length_text,
      Payload.truth, List.length_singleton, exprCost, weigh, Token.weight] at *
    omega

theorem StmtForm.weigh_le {st : Stmt} (form : StmtForm ts st rest) :
    (Payload.stmt st).length + weigh rest ≤ weigh ts := by
  cases form with
  | exportDefault value_ok | throw value_ok =>
    have value := takes_expr.le value_ok
    simp only [Payload.stmt, List.length_append, Payload.length_tag, exprCost, weigh] at *
    omega
  | @exportList _ _ pairs _ names_ok =>
    have names := (takes_aliases _).le names_ok
    have small := pairs_le_bindings pairs
    simp only [Payload.stmt_exportList, Payload.length_list, List.length_append, Payload.length_tag,
      weigh, Token.weight]
    omega
  | exportDeclare form =>
    have declared := form.weigh_le true
    simp only [weigh]
    omega
  | declare form => exact form.weigh_le false
  | expr value_ok =>
    have value := takes_expr.le value_ok
    simp only [Payload.stmt, List.length_append, Payload.length_tag, exprCost] at *
    omega

theorem GroupForm.weigh_le {bs : List Binding} (form : GroupForm ts bs rest) :
    (bs.flatMap Payload.binding).length + weigh rest ≤ weigh ts := by
  cases form with
  | everything =>
    simp only [List.flatMap_cons, List.flatMap_nil, List.append_nil, Payload.binding,
      List.length_append, Payload.length_tag, Payload.length_text, weigh, Token.weight]
    omega
  | named names_ok =>
    have names := (takes_aliases _).le names_ok
    simp only [List.flatMap_map, weigh]
    omega

theorem BindingsForm.weigh_le {bs : List Binding} (form : BindingsForm ts bs rest) :
    (bs.flatMap Payload.binding).length + weigh rest ≤ weigh ts := by
  cases form with
  | alone =>
    simp only [List.flatMap_cons, List.flatMap_nil, List.append_nil, Payload.binding,
      List.length_append, Payload.length_tag, Payload.length_text, weigh, Token.weight]
    omega
  | both form =>
    have group := form.weigh_le
    simp only [List.flatMap_cons, Payload.binding, List.length_append, Payload.length_tag,
      Payload.length_text, weigh, Token.weight]
    omega
  | group form => exact form.weigh_le

theorem ImportForm.weigh_le {i : Import} (form : ImportForm ts i rest) :
    (Payload.importDecl i).length + weigh rest ≤ weigh ts := by
  cases form with
  | bare =>
    simp only [Payload.importDecl, Payload.length_list, List.flatMap_nil, List.length_nil,
      List.length_append, Payload.length_text, weigh, Token.weight]
    omega
  | binding form =>
    have bound := form.weigh_le
    simp only [Payload.importDecl, Payload.length_list, List.length_append, Payload.length_text,
      weigh, Token.weight] at *
    omega

end

theorem length_encode (s : Script) :
    (Payload.encode s).length =
      16 + (s.imports.flatMap Payload.importDecl).length +
        (s.body.flatMap Payload.stmt).length := by
  simp only [Payload.encode, Payload.list, Payload.size, List.length_append, Bytes.length_ofNat]
  omega

theorem ScriptForm.length_encode_le {ts : List Token} {s : Script} (form : ScriptForm ts s) :
    (Payload.encode s).length ≤ 16 + weigh ts := by
  rw [length_encode]
  induction form with
  | done => exact Nat.le_refl _
  | separator _ ih =>
    simp only [weigh]
    omega
  | importDecl first _ ih =>
    have first := first.weigh_le
    simp only [List.flatMap_cons, List.length_append, weigh] at *
    omega
  | stmt first _ _ ih =>
    have first := first.weigh_le
    simp only [List.flatMap_cons, List.length_append] at *
    omega

theorem length_le_units16 (cs : List Char) : cs.length ≤ Text.charsUnits16 cs := by
  induction cs with
  | nil => exact Nat.le_refl 0
  | cons c cs ih =>
    have one : 1 ≤ Text.charUnits16 c := by unfold Text.charUnits16; split <;> decide
    simp only [List.length_cons, Text.charsUnits16]
    omega

/-- The payload is at most 72 times as long as the source. -/
theorem length_encode_parse {source : String} {s : Script} (h : parse source = .ok s) :
    (Payload.encode s).length ≤ 16 + 72 * Text.units16 source := by
  obtain ⟨ts, scanned, parsed⟩ := bind_eq_ok.1 h
  have encoded := (script_form parsed).length_encode_le
  have weight := weigh_scan scanned
  have units : source.toList.length ≤ Text.units16 source := length_le_units16 _
  omega

/-- The payload of a source that an engine string can hold is read back. -/
theorem decode_encode_parse {source : String} {s : Script} (h : parse source = .ok s)
    (small : Text.units16 source ≤ Header.maxSourceLength.toNat) :
    Payload.decode (Payload.encode s) = some s := by
  apply Payload.decode_encode
  have length := length_encode_parse h
  have bound : Header.maxSourceLength.toNat = 536870888 := rfl
  have room : UInt64.size = 18446744073709551616 := rfl
  omega

end CodeCache.Script
