import CodeCache.Proofs.Rendering
import Mathlib

/-! # Sources one after the other

A line break between two sources keeps them apart: no token reaches over it, a line comment ends at
it, and whatever stands behind it, the productions read of the first source what they read of it
alone. Semicolons are optional, so the only token a complete statement could go on with is a point,
and no source begins with one. -/

namespace CodeCache.Script

namespace Token

variable {p : Char → Bool} {cs rest : List Char}

theorem takeWhile_line (stop : p '\n' = false) (cs u : List Char) :
    (cs ++ '\n' :: u).takeWhile p = cs.takeWhile p := by
  induction cs with
  | nil => simp [stop]
  | cons c cs ih => simp only [List.cons_append, List.takeWhile_cons, ih]

theorem dropWhile_line (stop : p '\n' = false) (cs u : List Char) :
    (cs ++ '\n' :: u).dropWhile p = cs.dropWhile p ++ '\n' :: u := by
  induction cs with
  | nil => simp [stop]
  | cons c cs ih =>
    by_cases goesOn : p c
    · simp [goesOn, ih]
    · simp [goesOn]

theorem skipComment_append (h : skipComment cs = some rest) (u : List Char) :
    skipComment (cs ++ u) = some (rest ++ u) := by
  induction cs with
  | nil => cases h
  | cons c cs ih =>
    cases cs with
    | nil => simp [skipComment] at h
    | cons d cs =>
      rw [skipComment] at h
      rw [List.cons_append, skipComment]
      split at h
      case isTrue closed =>
        cases h
        exact if_pos closed
      case isFalse notClosed =>
        exact (if_neg notClosed).trans (ih h)

theorem scanString_append {quote : Char} {done text : List Char}
    (h : scanString quote done cs = some (text, rest)) (u : List Char) :
    scanString quote done (cs ++ u) = some (text, rest ++ u) := by
  fun_induction scanString quote done cs with
  | case1 => cases h
  | case2 => cases h
  | case3 done cs notBreak =>
    cases h
    rw [List.cons_append, scanString.eq_def]
    simp [notBreak]
  | case4 => cases h
  | case5 done e cs notBreak notQuote ih =>
    rw [List.cons_append, List.cons_append, scanString.eq_def]
    simp [notBreak, notQuote, ih h]
  | case6 done c cs notBreak notQuote notEscape ih =>
    rw [List.cons_append, scanString.eq_def]
    simp [notBreak, notQuote, notEscape, ih h]

/-- What a slash and the mark after it begin, they begin with more text behind them. -/
theorem comment_line {c mark : Char} (other : mark ≠ '\n') (cs u : List Char) :
    c = '/' ∧ (cs ++ '\n' :: u).head? = some mark ↔ c = '/' ∧ cs.head? = some mark := by
  cases cs with
  | nil => simp [other.symm]
  | cons d cs => simp

/-- A line break ends every token and every line comment, so scanning starts afresh behind it. -/
theorem scan_line {ts : List Token} (h : scan cs = .ok ts) (u : List Char) :
    scan (cs ++ '\n' :: u) = (scan u).map (ts ++ ·) := by
  have later (t : Token) (us : List Token) :
      ((scan u).map (us ++ ·)).map (t :: ·) = (scan u).map (t :: us ++ ·) := by
    cases scan u <;> rfl
  have line {c : Char} {cs : List Char} :
      c = '/' ∧ (cs ++ '\n' :: u).head? = some '/' ↔ c = '/' ∧ cs.head? = some '/' :=
    comment_line (by decide) cs u
  have block {c : Char} {cs : List Char} :
      c = '/' ∧ (cs ++ '\n' :: u).head? = some '*' ↔ c = '/' ∧ cs.head? = some '*' :=
    comment_line (by decide) cs u
  fun_induction scan cs generalizing ts with
  | case1 =>
    cases h
    rw [List.nil_append, scan, if_pos (by decide)]
    cases scan u <;> rfl
  | case2 c cs space ih =>
    rw [List.cons_append, scan, if_pos space, ih h]
  | case3 c cs noSpace comment ih =>
    rw [List.cons_append, scan, if_neg noSpace, if_pos (line.2 comment), dropWhile_line (by decide),
      ih h]
  | case4 => cases h
  | case5 c cs noSpace noLine comment after skipped ih =>
    rw [List.cons_append, scan, if_neg noSpace, if_neg (mt line.1 noLine),
      if_pos (block.2 comment)]
    have nonempty : cs ≠ [] := by
      rintro rfl
      cases comment.2
    have skips : skipComment (cs ++ '\n' :: u).tail = some (after ++ '\n' :: u) := by
      rw [List.tail_append_of_ne_nil nonempty]
      exact skipComment_append skipped _
    split
    case h_1 failed =>
      rw [skips] at failed
      cases failed
    case h_2 found =>
      rw [skips] at found
      cases found
      exact ih h
  | case6 => cases h
  | case7 c cs noSpace noLine noBlock quote text after scanned ih =>
    obtain ⟨us, hu, rfl⟩ := map_eq_ok.1 h
    rw [List.cons_append, scan, if_neg noSpace, if_neg (mt line.1 noLine),
      if_neg (mt block.1 noBlock), if_pos quote]
    have reads := scanString_append scanned ('\n' :: u)
    split
    case h_1 failed =>
      rw [reads] at failed
      cases failed
    case h_2 found =>
      rw [reads] at found
      cases found
      rw [ih hu, later]
  | case8 c cs noSpace noLine noBlock noQuote digit ih =>
    obtain ⟨us, hu, rfl⟩ := map_eq_ok.1 h
    rw [List.cons_append, scan, if_neg noSpace, if_neg (mt line.1 noLine),
      if_neg (mt block.1 noBlock), if_neg noQuote, if_pos digit, takeWhile_line (by decide),
      dropWhile_line (by decide), ih hu, later]
  | case9 c cs noSpace noLine noBlock noQuote noDigit word ih =>
    obtain ⟨us, hu, rfl⟩ := map_eq_ok.1 h
    rw [List.cons_append, scan, if_neg noSpace, if_neg (mt line.1 noLine),
      if_neg (mt block.1 noBlock), if_neg noQuote, if_neg noDigit, if_pos word,
      takeWhile_line (by decide), dropWhile_line (by decide), ih hu, later]
  | case10 c cs noSpace noLine noBlock noQuote noDigit noWord mark ih =>
    obtain ⟨us, hu, rfl⟩ := map_eq_ok.1 h
    rw [List.cons_append, scan, if_neg noSpace, if_neg (mt line.1 noLine),
      if_neg (mt block.1 noBlock), if_neg noQuote, if_neg noDigit, if_neg noWord, if_pos mark,
      ih hu, later]
  | case11 => cases h

end Token

section

variable {α β : Type} {ts rest u : List Token} {depth depth' : Nat} {e : Expr}

/-- What `p` reads, `q` reads with more tokens behind. Where `p` leaves none, only such tokens are
meant as `follows` allows there. -/
def Prolongs (follows : List Token → Prop) (p q : List Token → Except SyntaxError (Parsed α)) :
    Prop :=
  ∀ ⦃ts rest x⦄, p ts = .ok (x, rest) → ∀ u, (rest = [] → follows u) →
    q (ts ++ u) = .ok (x, rest ++ u)

def Anything (_ : List Token) : Prop := True

def Nothing (_ : List Token) : Prop := False

/-- Tokens that are no members of the operand before them. -/
def NoMember (u : List Token) : Prop := u.head? ≠ some (.punct '.')

theorem Prolongs.mono {f g : List Token → Prop}
    {p q : List Token → Except SyntaxError (Parsed α)} (h : Prolongs f p q)
    (weaker : ∀ u, g u → f u) : Prolongs g p q :=
  fun _ _ _ read u follows => h read u fun done => weaker u (follows done)

theorem Prolongs.map {f : List Token → Prop} {p q : List Token → Except SyntaxError (Parsed α)}
    (h : Prolongs f p q) (make : α → β) :
    Prolongs f
      (fun ts => do
        let (x, rest) ← p ts
        return (make x, rest))
      (fun ts => do
        let (x, rest) ← q ts
        return (make x, rest)) := by
  intro ts rest y made u follows
  obtain ⟨⟨x, last⟩, read, made⟩ := bind_eq_ok.1 made
  cases made
  exact bind_eq_ok.2 ⟨(x, rest ++ u), h read u follows, rfl⟩

theorem expectPunct_append {mark : Char} (h : expectPunct mark ts = .ok rest) (u : List Token) :
    expectPunct mark (ts ++ u) = .ok (rest ++ u) := by
  rw [expectPunct_eq_ok.1 h]
  exact expectPunct_eq_ok.2 rfl

theorem prolongs_identifier : Prolongs Anything identifier identifier := by
  intro ts rest name h u _
  rw [identifier_eq_ok.1 h]
  rfl

theorem prolongs_propertyKey : Prolongs Anything propertyKey propertyKey := by
  intro ts rest key h u _
  rcases propertyKey_eq_ok.1 h with rfl | rfl
  · rfl
  · rfl

theorem prolongs_nameAndAlias : Prolongs Nothing nameAndAlias nameAndAlias := by
  intro ts rest pair h u follows
  obtain ⟨⟨name, after⟩, first, h⟩ := bind_eq_ok.1 h
  refine bind_eq_ok.2 ⟨(name, after ++ u), prolongs_identifier first u fun _ => trivial, ?_⟩
  cases after with
  | nil =>
    cases h
    exact (follows rfl).elim
  | cons t after =>
    dsimp only at h
    split at h
    case isTrue word =>
      obtain ⟨⟨other, last⟩, second, h⟩ := bind_eq_ok.1 h
      cases h
      refine (if_pos word).trans (bind_eq_ok.2 ⟨(other, last ++ u), ?_, rfl⟩)
      exact prolongs_identifier second u fun _ => trivial
    case isFalse noWord =>
      cases h
      exact if_neg noWord

theorem prolongs_listStep {close : Char} {part part' : List Token → Except SyntaxError (Parsed α)}
    {again again' : List Token → Except SyntaxError (Parsed (List α))}
    (part_ok : Prolongs Nothing part part') (again_ok : Prolongs Anything again again')
    (needs : ∀ x, part [] ≠ .ok x) :
    Prolongs Anything (listStep close part again) (listStep close part' again') := by
  intro ts rest xs h u _
  cases ts with
  | nil =>
    obtain ⟨x, first, _⟩ := bind_eq_ok.1 h
    exact absurd first (needs x)
  | cons t ts =>
    rw [listStep] at h
    split at h
    case isTrue closed =>
      cases h
      exact if_pos closed
    case isFalse notClosed =>
      obtain ⟨⟨x, after⟩, first, h⟩ := bind_eq_ok.1 h
      dsimp only at h
      split at h
      case isTrue comma =>
        obtain ⟨⟨others, last⟩, more, h⟩ := bind_eq_ok.1 h
        rw [eq_cons_of_head comma] at first
        cases h
        exact listStep_more notClosed (part_ok first u (by simp))
          (again_ok more u fun _ => trivial)
      case isFalse noComma =>
        obtain ⟨last, closed, h⟩ := bind_eq_ok.1 h
        rw [expectPunct_eq_ok.1 closed] at first noComma
        cases h
        exact listStep_last notClosed (by simpa using noComma) (part_ok first u (by simp))

theorem prolongs_aliases (deep : depth ≤ depth') :
    Prolongs Anything (aliases depth) (aliases depth') := by
  induction depth generalizing depth' with
  | zero =>
    intro ts rest pairs h
    cases h
  | succ depth ih =>
    obtain ⟨depth', rfl⟩ := Nat.exists_eq_add_one.2 (Nat.lt_of_lt_of_le depth.succ_pos deep)
    have others := ih (Nat.le_of_succ_le_succ deep)
    exact prolongs_listStep prolongs_nameAndAlias others (by rintro _ ⟨⟩)

theorem members_of_head (h : NoMember ts) : members e ts = .ok (e, ts) := by
  rw [members]
  · rintro name rest rfl
    exact h rfl
  · rintro rest rfl
    exact h rfl

theorem prolongs_members (target : Expr) :
    Prolongs NoMember (members target) (members target) := by
  intro ts rest e h u follows
  fun_induction members target ts with
  | case1 target name ts ih => exact ih h
  | case2 => cases h
  | case3 target _ noKey noPoint =>
    cases h
    refine members_of_head ?_
    cases rest with
    | nil => exact follows rfl
    | cons t rest =>
      rintro ⟨⟩
      exact noPoint _ rfl

theorem prolongs_atom : Prolongs Anything atom atom := by
  intro ts rest e h u _
  cases atom_form h with
  | number number_ok =>
    rw [List.cons_append, atom, number_ok]
    rfl
  | negative number_ok =>
    rw [List.cons_append, List.cons_append, atom, if_pos rfl, number_ok]
    rfl
  | str => rfl
  | word => rfl

theorem prolongs_propertyValue {value value' : List Token → Except SyntaxError (Parsed Expr)}
    (value_ok : Prolongs NoMember value value') (key : String) :
    Prolongs Nothing (propertyValue value key) (propertyValue value' key) := by
  intro ts rest e h u follows
  cases ts with
  | nil =>
    cases h
    exact (follows rfl).elim
  | cons t ts =>
    rw [propertyValue] at h
    split at h
    case isTrue colon =>
      exact (if_pos colon).trans (value_ok h u fun done => (follows done).elim)
    case isFalse noColon =>
      cases h
      exact if_neg noColon

theorem prolongs_property {value value' : List Token → Except SyntaxError (Parsed Expr)}
    (value_ok : Prolongs NoMember value value') :
    Prolongs Nothing (property value) (property value') := by
  intro ts rest p h u follows
  obtain ⟨⟨key, after⟩, first, h⟩ := bind_eq_ok.1 h
  refine bind_eq_ok.2 ⟨(key, after ++ u), prolongs_propertyKey first u fun _ => trivial, ?_⟩
  exact (prolongs_propertyValue value_ok key).map (Prod.mk key) h u follows

theorem exprWithin_nil (depth : Nat) (x : Parsed Expr) : exprWithin depth [] ≠ .ok x := by
  cases depth with
  | zero => rintro ⟨⟩
  | succ depth => rintro ⟨⟩

/-- A bound on the depth that is enough for some tokens is enough when more of them follow. -/
theorem prolongs_nested (deep : depth ≤ depth') :
    Prolongs NoMember (exprWithin depth) (exprWithin depth') ∧
      Prolongs Anything (itemsWithin depth) (itemsWithin depth') ∧
      Prolongs Anything (propertiesWithin depth) (propertiesWithin depth') := by
  induction depth generalizing depth' with
  | zero =>
    refine ⟨?_, ?_, ?_⟩
    all_goals
      intro ts rest x h
      cases h
  | succ depth ih =>
    obtain ⟨depth', rfl⟩ := Nat.exists_eq_add_one.2 (Nat.lt_of_lt_of_le depth.succ_pos deep)
    obtain ⟨expr_ok, items_ok, properties_ok⟩ := ih (Nat.le_of_succ_le_succ deep)
    have nothing : ∀ u, Nothing u → NoMember u := fun _ => False.elim
    refine ⟨?_, ?_, ?_⟩
    · intro ts rest e h u follows
      rw [exprWithin] at h
      split at h
      case isTrue bracket =>
        obtain ⟨⟨es, after⟩, items, h⟩ := bind_eq_ok.1 h
        rw [eq_cons_of_head bracket, List.cons_append,
          exprWithin_array (items_ok items u fun _ => trivial)]
        exact prolongs_members _ h u follows
      split at h
      case isTrue brace =>
        obtain ⟨⟨ps, after⟩, properties, h⟩ := bind_eq_ok.1 h
        rw [eq_cons_of_head brace, List.cons_append,
          exprWithin_object (properties_ok properties u fun _ => trivial)]
        exact prolongs_members _ h u follows
      case isFalse =>
        obtain ⟨⟨operand, after⟩, first, h⟩ := bind_eq_ok.1 h
        rw [exprWithin_of_atom (prolongs_atom first u fun _ => trivial) depth'.succ_pos]
        exact prolongs_members _ h u follows
    · intro ts rest es h u
      rw [itemsWithin_succ] at h ⊢
      exact prolongs_listStep (expr_ok.mono nothing) items_ok (exprWithin_nil depth) h u
    · intro ts rest ps h u
      rw [propertiesWithin_succ] at h ⊢
      exact prolongs_listStep (prolongs_property expr_ok) properties_ok (by rintro _ ⟨⟩) h u

theorem prolongs_expr : Prolongs NoMember expr expr := by
  intro ts rest e h u
  have deep : 2 * ts.length + 1 ≤ 2 * (ts ++ u).length + 1 := by
    rw [List.length_append]
    omega
  exact (prolongs_nested deep).1 h u

theorem prolongs_declaration (exported : Bool) :
    Prolongs NoMember (declaration exported) (declaration exported) := by
  intro ts rest st h u follows
  cases ts with
  | nil => cases h
  | cons t ts =>
    obtain ⟨⟨name, afterName⟩, first, h⟩ := bind_eq_ok.1 h
    obtain ⟨afterMark, mark, h⟩ := bind_eq_ok.1 h
    refine bind_eq_ok.2 ⟨_, prolongs_identifier first u fun _ => trivial, ?_⟩
    refine bind_eq_ok.2 ⟨afterMark ++ u, expectPunct_append mark u, ?_⟩
    exact prolongs_expr.map (Stmt.declare name · exported) h u follows

theorem prolongs_exportStmt : Prolongs NoMember exportStmt exportStmt := by
  intro ts rest st h u follows
  cases ts with
  | nil => cases h
  | cons t ts =>
    rw [exportStmt] at h
    split at h
    case isTrue word =>
      exact (if_pos word).trans (prolongs_expr.map Stmt.exportDefault h u follows)
    case isFalse noWord =>
      refine (if_neg noWord).trans ?_
      split at h
      case isTrue brace =>
        have deep : (t :: ts).length ≤ (t :: ts ++ u).length := by simp
        have names := (prolongs_aliases deep).map Stmt.exportList
        exact (if_pos brace).trans (names h u fun _ => trivial)
      case isFalse noBrace =>
        refine (if_neg noBrace).trans ?_
        split at h
        case isTrue starts =>
          exact (if_pos starts).trans (prolongs_declaration true h u follows)
        case isFalse => cases h

theorem prolongs_stmt : Prolongs NoMember stmt stmt := by
  intro ts rest st h u follows
  cases ts with
  | nil => cases h
  | cons t ts =>
    rw [stmt] at h
    split at h
    case isTrue word => exact (if_pos word).trans (prolongs_exportStmt h u follows)
    case isFalse noExport =>
      refine (if_neg noExport).trans ?_
      split at h
      case isTrue word => exact (if_pos word).trans (prolongs_expr.map Stmt.throw h u follows)
      case isFalse noThrow =>
        refine (if_neg noThrow).trans ?_
        split at h
        case isTrue starts =>
          exact (if_pos starts).trans (prolongs_declaration false h u follows)
        case isFalse noDeclaration =>
          exact (if_neg noDeclaration).trans (prolongs_expr.map Stmt.expr h u follows)

theorem prolongs_bindingGroup : Prolongs Anything bindingGroup bindingGroup := by
  intro ts rest bs h u _
  cases ts with
  | nil => cases h
  | cons t ts =>
    rw [bindingGroup] at h
    split at h
    case isTrue star =>
      obtain ⟨⟨b, last⟩, bound, h⟩ := bind_eq_ok.1 h
      obtain ⟨afterWord, word, bound⟩ := bind_eq_ok.1 bound
      obtain ⟨⟨name, afterName⟩, named, bound⟩ := bind_eq_ok.1 bound
      rw [List.tail_cons, expectWord_eq_ok, identifier_eq_ok.1 named] at word
      cases bound
      cases h
      rw [word]
      exact if_pos star
    case isFalse noStar =>
      obtain ⟨afterBrace, brace, h⟩ := bind_eq_ok.1 h
      have deep : (t :: ts).length ≤ (t :: ts ++ u).length := by simp
      have names := (prolongs_aliases deep).map fun pairs => pairs.map namedBinding
      refine (if_neg noStar).trans (bind_eq_ok.2 ⟨afterBrace ++ u, expectPunct_append brace u, ?_⟩)
      exact names h u fun _ => trivial

theorem prolongs_bindings : Prolongs Nothing bindings bindings := by
  intro ts rest bs h u follows
  unfold bindings at h
  split at h
  case h_1 name after =>
    cases after with
    | nil =>
      cases h
      exact (follows rfl).elim
    | cons t after =>
      split at h
      case isTrue comma =>
        have group := prolongs_bindingGroup.map (Binding.defaultExport name :: ·)
        exact (if_pos comma).trans (group h u fun _ => trivial)
      case isFalse noComma =>
        cases h
        exact if_neg noComma
  case h_2 noName =>
    have group := prolongs_bindingGroup h u fun _ => trivial
    cases ts with
    | nil => cases h
    | cons t ts =>
      rw [List.cons_append] at group ⊢
      rw [bindings]
      · exact group
      · rintro name _ ⟨⟩
        exact noName name ts rfl

theorem prolongs_importDecl : Prolongs Anything importDecl importDecl := by
  intro ts rest i h u _
  unfold importDecl at h
  split at h
  case h_1 =>
    cases h
    rfl
  case h_2 noText =>
    cases ts with
    | nil => cases h
    | cons t ts =>
      obtain ⟨⟨bs, afterBindings⟩, bound, h⟩ := bind_eq_ok.1 h
      obtain ⟨afterWord, word, h⟩ := bind_eq_ok.1 h
      obtain ⟨⟨specifier, last⟩, source, h⟩ := bind_eq_ok.1 h
      rw [expectWord_eq_ok.1 word, stringLiteral_eq_ok.1 source] at bound
      cases h
      have bound := prolongs_bindings bound u (by simp)
      rw [List.cons_append] at bound ⊢
      rw [importDecl, bound]
      · rfl
      · rintro text _ ⟨⟩
        exact noText text ts rfl

/-- A source never begins as a member of what stands before it. -/
theorem noMember_of_script {s : Script} (h : scriptWithin depth ts = .ok s) : NoMember ts := by
  intro point
  rw [eq_cons_of_head point] at h
  cases depth with
  | zero => cases h
  | succ depth => cases h

theorem scriptWithin_append {a b : Script} (first : scriptWithin depth ts = .ok a)
    (noMember : NoMember u) (later : ∀ bound, depth' ≤ bound → scriptWithin bound u = .ok b)
    {bound : Nat} (deep : depth + depth' ≤ bound) :
    scriptWithin bound (ts ++ u) =
      .ok { imports := a.imports ++ b.imports, body := a.body ++ b.body } := by
  fun_induction scriptWithin depth ts generalizing a bound with
  | case1 depth =>
    cases first
    exact later bound (by omega)
  | case2 => cases first
  | case3 depth ts _ mark ih =>
    obtain ⟨bound, rfl⟩ : ∃ less, bound = less + 1 := ⟨bound - 1, by omega⟩
    rw [eq_cons_of_head mark, List.cons_append, scriptWithin_semicolon]
    exact ih first (by omega)
  | case4 depth ts _ _ word ih =>
    obtain ⟨bound, rfl⟩ : ∃ less, bound = less + 1 := ⟨bound - 1, by omega⟩
    obtain ⟨⟨i, last⟩, read, first⟩ := bind_eq_ok.1 first
    obtain ⟨others, rest_ok, first⟩ := bind_eq_ok.1 first
    cases first
    rw [eq_cons_of_head word, List.cons_append]
    exact scriptWithin_import (prolongs_importDecl read u fun _ => trivial)
      (ih last rest_ok (by omega))
  | case5 depth ts nonempty noMark noImport ih =>
    obtain ⟨bound, rfl⟩ : ∃ less, bound = less + 1 := ⟨bound - 1, by omega⟩
    obtain ⟨⟨st, last⟩, read, first⟩ := bind_eq_ok.1 first
    obtain ⟨others, rest_ok, first⟩ := bind_eq_ok.1 first
    cases first
    obtain ⟨t, ts, rfl⟩ := List.exists_cons_of_ne_nil nonempty
    have readBoth := prolongs_stmt read u fun _ => noMember
    have later : scriptWithin bound (last ++ u) = .ok _ := ih last rest_ok (by omega)
    refine scriptWithin_of_stmt ?_ ?_ readBoth later
    · exact noMark
    · exact noImport

end

/-- A source, a line break and another source denote the imports of both and the bodies of both, in
this order, whatever the first one ends with and the second one begins with. -/
theorem parse_lines {a b : String} {s t : Script} (first : parse a = .ok s)
    (second : parse b = .ok t) :
    parse (a ++ "\n" ++ b) =
      .ok { imports := s.imports ++ t.imports, body := s.body ++ t.body } := by
  obtain ⟨ts, scanned, first⟩ := bind_eq_ok.1 first
  obtain ⟨us, scanned', second⟩ := bind_eq_ok.1 second
  have deep (bound : Nat) (le : us.length ≤ bound) : scriptWithin bound us = .ok t := by
    have nothing (bound : Nat) (_ : 0 ≤ bound) : scriptWithin bound [] = .ok {} :=
      scriptWithin.eq_1 bound
    have alone := scriptWithin_append second (by simp [NoMember]) nothing le
    simpa using alone
  have scannedBoth : Token.scan (a ++ "\n" ++ b).toList = .ok (ts ++ us) := by
    rw [String.toList_append, String.toList_append, List.append_assoc]
    exact (Token.scan_line scanned b.toList).trans (by rw [scanned']; rfl)
  rw [parse, scannedBoth]
  exact scriptWithin_append first (noMember_of_script second) deep (by simp)

/-- A member in front of a line comment, and an array literal behind it. -/
theorem parse_lines_comment :
    parse "import d from \"a\" export default d.n // no mark" =
        .ok { imports := [⟨"a", [.defaultExport "d"]⟩],
              body := [.exportDefault (.member (.ident "d") "n")] } ∧
      parse "[-1, d].k; import \"m\"" =
        .ok { imports := [⟨"m", []⟩],
              body := [.expr (.member (.array [.int (-1), .ident "d"]) "k")] } ∧
      parse ("import d from \"a\" export default d.n // no mark" ++ "\n" ++
          "[-1, d].k; import \"m\"") =
        .ok { imports := [⟨"a", [.defaultExport "d"]⟩, ⟨"m", []⟩],
              body := [.exportDefault (.member (.ident "d") "n"),
                .expr (.member (.array [.int (-1), .ident "d"]) "k")] } := by
  have first : parse "import d from \"a\" export default d.n // no mark" =
      .ok { imports := [⟨"a", [.defaultExport "d"]⟩],
            body := [.exportDefault (.member (.ident "d") "n")] } := by
    cbv
  have second : parse "[-1, d].k; import \"m\"" =
      .ok { imports := [⟨"m", []⟩],
            body := [.expr (.member (.array [.int (-1), .ident "d"]) "k")] } := by
    cbv
  exact ⟨first, second, parse_lines first second⟩

end CodeCache.Script
