import CodeCache.Proofs.Cursor
import CodeCache.Proofs.Productions
import Mathlib

/-! # The position stays inside the tokens

Wherever the machine stands, it reads what the productions read of the tokens that are left there,
and stops with the same error where they do. It never asks for a token behind the mark at the end,
and every loop has come to its end before it has turned once for each token, because each turn but
the last leaves a token behind. The bound on the depth of the productions is not reached either. -/

namespace CodeCache.Script

namespace Reading

variable {α β σ : Type} {all ts rest : List Token} {e : SyntaxError} {depth : Nat}

/-- The cursor where the tokens `ts` are left of `all`. -/
def place (all ts : List Token) : Cursor := ⟨withEnd all, all.length - ts.length⟩

theorem getElem?_place (left : ts <:+ all) :
    (place all ts).tokens[(place all ts).pos]? = some ts.head? := by
  obtain ⟨before, rfl⟩ := left
  cases ts with
  | nil => simp [place, withEnd]
  | cons t ts => simp [place, withEnd]

theorem place_tail {t : Token} (left : t :: ts <:+ all) :
    { place all (t :: ts) with pos := (place all (t :: ts)).pos + 1 } = place all ts := by
  have longer := left.length_le
  rw [List.length_cons] at longer
  simp only [place, List.length_cons, Cursor.mk.injEq, true_and]
  omega

theorem length_lt_place (left : ts <:+ all) : ts.length < (place all ts).tokens.length := by
  have := left.length_le
  simp only [place, withEnd, List.length_append, List.length_map, List.length_singleton]
  omega

theorem pos_place_lt (all ts : List Token) : (place all ts).pos < (place all ts).tokens.length := by
  simp only [place, withEnd, List.length_append, List.length_map, List.length_singleton]
  omega

inductive Ends (r : Reading α) (all ts : List Token) : Except SyntaxError (Parsed α) → Prop
  | ok {x : α} {rest : List Token} (left : rest <:+ ts)
      (run : r.run (place all ts) = (.ok x, place all rest)) : Ends r all ts (.ok (x, rest))
  | error {e : SyntaxError} {rest : List Token} (genuine : e ≠ .tooDeep) (left : rest <:+ ts)
      (run : r.run (place all ts) = (.error (.syntaxError e), place all rest)) :
      Ends r all ts (.error e)

/-- The machine reads of the tokens that are left what a production reads of them. -/
def Agrees (r : Reading α) (ts : List Token) (out : Except SyntaxError (Parsed α)) : Prop :=
  ∀ ⦃all⦄, ts <:+ all → Ends r all ts out

section

variable {out : Except SyntaxError (Parsed α)} {out' : Except SyntaxError (Parsed β)} {x : α}
  {t : Token}

theorem Agrees.pure : Agrees (pure x) ts (.ok (x, ts)) :=
  fun _ _ => .ok List.suffix_rfl rfl

theorem Agrees.fail (genuine : e ≠ .tooDeep) : Agrees (Reading.fail e : Reading α) ts (.error e) :=
  fun _ _ => .error genuine List.suffix_rfl rfl

theorem Agrees.bind {r : Reading α} {k : α → Reading β}
    {later : Parsed α → Except SyntaxError (Parsed β)} (first : Agrees r ts out)
    (second : ∀ x rest, out = .ok (x, rest) → Agrees (k x) rest (later (x, rest))) :
    Agrees (r >>= k) ts (out >>= later) := by
  intro all left
  cases first left with
  | @ok x rest left' run =>
    have ends := second x rest rfl (left'.trans left)
    show Ends (r >>= k) all ts (later (x, rest))
    generalize later (x, rest) = out' at ends
    cases ends with
    | ok left'' run' => exact .ok (left''.trans left') ((Action.run_bind_ok run).trans run')
    | error genuine left'' run' =>
      exact .error genuine (left''.trans left') ((Action.run_bind_ok run).trans run')
  | error genuine left' run => exact .error genuine left' (Action.run_bind_error run)

theorem Agrees.after {r : Reading α} {k : α → Reading β} (left : rest <:+ ts)
    (run : ∀ all, ts <:+ all → r.run (place all ts) = (.ok x, place all rest))
    (later : Agrees (k x) rest out') : Agrees (r >>= k) ts out' := by
  intro all left'
  have run := run all left'
  cases later (left.trans left') with
  | ok left'' run' => exact .ok (left''.trans left) ((Action.run_bind_ok run).trans run')
  | error genuine left'' run' =>
    exact .error genuine (left''.trans left) ((Action.run_bind_ok run).trans run')

theorem run_peek_place (left : ts <:+ all) :
    peek.run (place all ts) = (.ok ts.head?, place all ts) := by
  rw [run_peek, getElem?_place left]

theorem Agrees.peek_bind {k : Option Token → Reading α} (later : Agrees (k ts.head?) ts out) :
    Agrees (peek >>= k) ts out :=
  .after List.suffix_rfl (fun _ left => run_peek_place left) later

theorem Agrees.skip_bind {k : Unit → Reading α} (later : Agrees (k ()) ts out) :
    Agrees (skip >>= k) (t :: ts) out :=
  .after (List.suffix_cons t ts) (fun _ left => congrArg (Prod.mk _) (place_tail left)) later

theorem Agrees.get_bind {k : Cursor → Reading α}
    (later : ∀ all, ts <:+ all → Agrees (k (place all ts)) ts out) : Agrees (get >>= k) ts out := by
  intro all left
  have ends := later all left left
  cases ends with
  | ok left' run => exact .ok left' run
  | error genuine left' run => exact .error genuine left' run

theorem Agrees.next_bind_end {k : Option Token → Reading α} (later : Agrees (k none) [] out) :
    Agrees (next >>= k) [] out := by
  rw [next, bind_assoc]
  exact .peek_bind later

theorem Agrees.next_bind {k : Option Token → Reading α} (later : Agrees (k (some t)) ts out) :
    Agrees (next >>= k) (t :: ts) out := by
  rw [next, bind_assoc]
  refine .peek_bind ?_
  dsimp only [List.head?_cons]
  rw [bind_assoc]
  exact .skip_bind later

theorem Agrees.eat_bind {k : Bool → Reading α} (later : Agrees (k true) ts out) :
    Agrees (eat t >>= k) (t :: ts) out := by
  rw [eat, bind_assoc]
  refine .peek_bind ?_
  rw [List.head?_cons, if_pos rfl, bind_assoc]
  exact .skip_bind later

theorem Agrees.eat_bind_other {k : Bool → Reading α} (other : ts.head? ≠ some t)
    (later : Agrees (k false) ts out) : Agrees (eat t >>= k) ts out := by
  rw [eat, bind_assoc]
  refine .peek_bind ?_
  rw [if_neg other]
  exact later

theorem Agrees.ifEat {yes no : Reading α} {found missing : Except SyntaxError (Parsed α)}
    (onYes : ∀ rest, ts = t :: rest → Agrees yes rest found)
    (onNo : ts.head? ≠ some t → Agrees no ts missing) :
    Agrees (do if ← eat t then yes else no) ts (if ts.head? = some t then found else missing) := by
  by_cases head : ts.head? = some t
  · rw [if_pos head, eq_cons_of_head head]
    exact .eat_bind (onYes _ (eq_cons_of_head head))
  · rw [if_neg head]
    exact .eat_bind_other head (onNo head)

theorem Agrees.map {r : Reading α} (first : Agrees r ts out) (make : α → β) :
    Agrees (make <$> r) ts (out.map fun p => (make p.1, p.2)) := by
  rw [map_eq_pure_bind]
  have mapped : out.map (fun p => (make p.1, p.2)) = out >>= fun p => .ok (make p.1, p.2) := by
    cases out <;> rfl
  rw [mapped]
  exact first.bind fun _ _ _ => .pure

end

theorem agrees_expect {t : Token} {text : String} :
    Agrees (expect t text) ts
      (if ts.head? = some t then .ok ((), ts.tail) else .error (.expected text ts.head?)) := by
  refine .ifEat ?_ fun _ => .peek_bind (.fail nofun)
  rintro rest rfl
  exact .pure

theorem Agrees.expect_bind {t : Token} {text : String} {k : Unit → Reading α}
    {later : List Token → Except SyntaxError (Parsed α)}
    (second : ∀ rest, ts = t :: rest → Agrees (k ()) rest (later rest)) :
    Agrees (expect t text >>= k) ts
      ((if ts.head? = some t then .ok ts.tail else .error (.expected text ts.head?)) >>= later) := by
  have same : ((if ts.head? = some t then .ok ts.tail
        else .error (.expected text ts.head?)) >>= later) =
      (if ts.head? = some t then .ok ((), ts.tail)
        else .error (.expected text ts.head?)) >>= fun p => later p.2 := by
    split <;> rfl
  rw [same]
  refine agrees_expect.bind fun x rest found => second rest ?_
  split at found
  case isTrue head =>
    cases found
    exact eq_cons_of_head head
  case isFalse => cases found

theorem Agrees.expectPunct_bind {c : Char} {k : Unit → Reading α}
    {later : List Token → Except SyntaxError (Parsed α)}
    (second : ∀ rest, ts = .punct c :: rest → Agrees (k ()) rest (later rest)) :
    Agrees (expectPunct c >>= k) ts (Script.expectPunct c ts >>= later) :=
  .expect_bind second

theorem Agrees.expectWord_bind {word : String} {k : Unit → Reading α}
    {later : List Token → Except SyntaxError (Parsed α)}
    (second : ∀ rest, ts = .ident word :: rest → Agrees (k ()) rest (later rest)) :
    Agrees (expectWord word >>= k) ts (Script.expectWord word ts >>= later) :=
  .expect_bind second

theorem agrees_identifier : Agrees identifier ts (Script.identifier ts) := by
  rcases ts with _ | ⟨_ | _ | _ | _, ts⟩
  · exact .next_bind_end (.fail nofun)
  · exact .next_bind .pure
  · exact .next_bind (.fail nofun)
  · exact .next_bind (.fail nofun)
  · exact .next_bind (.fail nofun)

theorem agrees_stringLiteral : Agrees stringLiteral ts (Script.stringLiteral ts) := by
  rcases ts with _ | ⟨_ | _ | _ | _, ts⟩
  · exact .next_bind_end (.fail nofun)
  · exact .next_bind (.fail nofun)
  · exact .next_bind .pure
  · exact .next_bind (.fail nofun)
  · exact .next_bind (.fail nofun)

theorem agrees_propertyKey : Agrees propertyKey ts (Script.propertyKey ts) := by
  rcases ts with _ | ⟨_ | _ | _ | _, ts⟩
  · exact .next_bind_end (.fail nofun)
  · exact .next_bind .pure
  · exact .next_bind .pure
  · exact .next_bind (.fail nofun)
  · exact .next_bind (.fail nofun)

theorem agrees_nameAndAlias : Agrees nameAndAlias ts (Script.nameAndAlias ts) := by
  refine agrees_identifier.bind fun name rest _ => .ifEat ?_ fun _ => .pure
  rintro rest rfl
  exact agrees_identifier.bind fun other rest _ => .pure

/-- The position moves by as many tokens as are gone. -/
theorem Agrees.shorter {r : Reading α} {x : α} {least : α → Nat}
    (h : Agrees r ts (.ok (x, rest))) (gains : Gains least r) :
    rest.length + least x ≤ ts.length := by
  cases h List.suffix_rfl with
  | ok left run =>
    have moved := gains run
    have := left.length_le
    simp only [place] at moved
    omega

section

variable {turn : σ → Reading (ForInStep σ)} {s : σ} {bound : Nat}

/-- There may be as many turns as there are tokens, the mark at the end among them. -/
theorem agrees_loop {out : Except SyntaxError (Parsed σ)}
    (h : ∀ bound, ts.length < bound → Agrees (turns turn bound s) ts out) :
    Agrees (loop turn s) ts out :=
  .get_bind fun _ left => h _ (length_lt_place left)

def onwards (again : σ → List Token → Except SyntaxError (Parsed σ)) :
    Parsed (ForInStep σ) → Except SyntaxError (Parsed σ)
  | (.yield s, rest) => again s rest
  | (.done s, rest) => .ok (s, rest)

theorem agrees_turns {step : Except SyntaxError (Parsed (ForInStep σ))}
    {again : σ → List Token → Except SyntaxError (Parsed σ)} (gains : Gains goingOn (turn s))
    (first : Agrees (turn s) ts step)
    (second : ∀ s rest, rest.length < ts.length →
      Agrees (turns turn bound s) rest (again s rest)) :
    Agrees (turns turn (bound + 1) s) ts (step >>= onwards again) := by
  refine first.bind fun x rest found => ?_
  cases x with
  | «yield» s =>
    rw [found] at first
    exact second s rest (first.shorter gains)
  | done s => exact .pure

/-- A loop agrees with a recursion that takes the same turns. -/
theorem agrees_loop_of {turnOf : σ → List Token → Except SyntaxError (Parsed (ForInStep σ))}
    {again : σ → List Token → Except SyntaxError (Parsed σ)}
    (gains : ∀ s, Gains goingOn (turn s)) (first : ∀ s ts, Agrees (turn s) ts (turnOf s ts))
    (unfolds : ∀ s ts, again s ts = turnOf s ts >>= onwards again) (s : σ) :
    Agrees (loop turn s) ts (again s ts) := by
  refine agrees_loop fun bound turning => ?_
  induction bound generalizing ts s with
  | zero => exact absurd turning (Nat.not_lt_zero _)
  | succ bound ih =>
    rw [unfolds]
    exact agrees_turns (gains s) (first s ts) fun s rest shorter => ih s (by omega)

end

def listTurnOf (close : Char) (part : List Token → Except SyntaxError (Parsed α)) (xs : List α)
    (ts : List Token) : Except SyntaxError (Parsed (ForInStep (List α))) :=
  if ts.head? = some (.punct close) then .ok (.done xs, ts.tail)
  else do
    let (x, rest) ← part ts
    if rest.head? = some (.punct ',') then return (.yield (xs ++ [x]), rest.tail)
    else
      let rest ← Script.expectPunct close rest
      return (.done (xs ++ [x]), rest)

theorem agrees_listTurn {close : Char} {part : Reading α}
    {partOf : List Token → Except SyntaxError (Parsed α)} (part_ok : Agrees part ts (partOf ts))
    (xs : List α) : Agrees (listTurn close part xs) ts (listTurnOf close partOf xs ts) := by
  refine .ifEat ?_ fun _ => part_ok.bind fun x rest _ => .ifEat ?_ fun _ => ?_
  · rintro rest rfl
    exact .pure
  · rintro rest rfl
    exact .pure
  · exact .expectPunct_bind fun rest _ => .pure

def appended (make : α → β) (ys : List β) (p : Parsed (List α)) : Parsed (List β) :=
  (ys ++ p.1.map make, p.2)

/-- The parts of a list one after the other, and all of them at once. -/
theorem listStep_turn {close : Char} {part : List Token → Except SyntaxError (Parsed α)}
    {again : List Token → Except SyntaxError (Parsed (List α))} (make : α → β) (ys : List β) :
    (listStep close part again ts).map (appended make ys) =
      listTurnOf close (fun ts => (part ts).map fun p => (make p.1, p.2)) ys ts >>=
        onwards fun ys rest => (again rest).map (appended make ys) := by
  rw [listStep, listTurnOf]
  split
  · simp [appended, onwards, Except.map, Bind.bind, Except.bind]
  cases part ts with
  | error e => rfl
  | ok p =>
    obtain ⟨x, rest⟩ := p
    simp only [Except.map, Bind.bind, Except.bind]
    by_cases comma : rest.head? = some (.punct ',')
    · cases others : again rest.tail with
      | error e => simp [comma, others, onwards, pure, Except.pure]
      | ok p => simp [comma, others, onwards, appended, pure, Except.pure]
    · cases Script.expectPunct close rest with
      | error e => simp [comma]
      | ok rest => simp [comma, onwards, appended, pure, Except.pure]

theorem agrees_list {close : Char} {part : Reading β}
    {partOf : List Token → Except SyntaxError (Parsed α)}
    {again : List Token → Except SyntaxError (Parsed (List α))} {make : α → β} {ys : List β}
    {bound : Nat} (keeps : Keeps part)
    (part_ok : Agrees part ts ((partOf ts).map fun p => (make p.1, p.2)))
    (again_ok : ∀ ys rest, rest.length < ts.length →
      Agrees (turns (listTurn close part) bound ys) rest ((again rest).map (appended make ys))) :
    Agrees (turns (listTurn close part) (bound + 1) ys) ts
      ((listStep close partOf again ts).map (appended make ys)) := by
  rw [listStep_turn]
  have gains : Gains goingOn (listTurn close part ys) :=
    (consumes_listTurn keeps ys).mono fun step => by cases step <;> simp [goingOn]
  have first : Agrees (listTurn close part ys) ts
      (listTurnOf close (fun ts => (partOf ts).map fun p => (make p.1, p.2)) ys ts) :=
    agrees_listTurn part_ok ys
  exact agrees_turns gains first again_ok

theorem agrees_aliases {make : String × String → α} {depth bound : Nat} {names : List α}
    (deep : ts.length < depth) (turning : ts.length < bound) :
    Agrees (turns (aliasTurn make) bound names) ts
      ((aliases depth ts).map (appended make names)) := by
  induction depth generalizing ts bound names with
  | zero => exact absurd deep (Nat.not_lt_zero _)
  | succ depth ih =>
    obtain ⟨bound, rfl⟩ := Nat.exists_eq_add_one.2 (Nat.zero_lt_of_lt turning)
    rw [aliases_succ]
    have keeps : Keeps (make <$> nameAndAlias) := by
      rw [map_eq_pure_bind]
      exact Keeps.bind consumes_nameAndAlias.keeps fun _ => .pure rfl
    refine agrees_list keeps (agrees_nameAndAlias.map make) fun names rest shorter => ih ?_ ?_
    · omega
    · omega

theorem number_ne_tooDeep {negative : Bool} {text : String} :
    number negative text ≠ .error .tooDeep := by
  unfold number
  dsimp only
  split
  · split
    · nofun
    split
    · nofun
    · nofun
  · nofun
  · nofun

theorem agrees_literal {negative : Bool} {text : String} :
    Agrees (literal negative text) ts (number negative text >>= fun e => .ok (e, ts)) := by
  unfold literal
  cases read : number negative text with
  | ok e => exact .pure
  | error e => exact .fail fun deep => number_ne_tooDeep (deep ▸ read)

theorem agrees_negated :
    Agrees negated ts
      (match ts with
      | .num text :: rest => number true text >>= fun e => .ok (e, rest)
      | rest => .error (.expectedNumber rest.head?)) := by
  rcases ts with _ | ⟨_ | _ | _ | _, ts⟩
  · exact .next_bind_end (.fail nofun)
  · exact .next_bind (.fail nofun)
  · exact .next_bind (.fail nofun)
  · exact .next_bind agrees_literal
  · exact .next_bind (.fail nofun)

theorem agrees_property {value : Reading Expr}
    {valueOf : List Token → Except SyntaxError (Parsed Expr)}
    (value_ok : ∀ rest, rest.length < ts.length → Agrees value rest (valueOf rest)) :
    Agrees (property value) ts (Script.property valueOf ts) := by
  refine agrees_propertyKey.bind fun key rest found => ?_
  have read : Agrees propertyKey ts (.ok (key, rest)) := found ▸ agrees_propertyKey
  have shorter := read.shorter consumes_propertyKey
  have same : (propertyValue valueOf key rest >>= fun p => .ok ((key, p.1), p.2)) =
      if rest.head? = some (.punct ':') then valueOf rest.tail >>= fun p => .ok ((key, p.1), p.2)
      else .ok ((key, .ident key), rest) := by
    rw [propertyValue]
    split <;> rfl
  show Agrees _ rest (propertyValue valueOf key rest >>= fun p => .ok ((key, p.1), p.2))
  rw [same]
  refine .ifEat ?_ fun _ => .pure
  rintro after rfl
  rw [List.length_cons] at shorter
  exact (value_ok after (by omega)).bind fun e rest _ => .pure

def memberTurnOf (e : Expr) (ts : List Token) : Except SyntaxError (Parsed (ForInStep Expr)) :=
  if ts.head? = some (.punct '.') then do
    let (name, rest) ← Script.identifier ts.tail
    return (.yield (.member e name), rest)
  else .ok (.done e, ts)

theorem agrees_memberTurn (e : Expr) : Agrees (memberTurn e) ts (memberTurnOf e ts) := by
  refine .ifEat ?_ fun _ => .pure
  rintro rest rfl
  exact agrees_identifier.bind fun name rest _ => .pure

theorem members_turn (e : Expr) (ts : List Token) :
    members e ts = memberTurnOf e ts >>= onwards members := by
  by_cases point : ts.head? = some (.punct '.')
  · rw [eq_cons_of_head point]
    rcases ts.tail with _ | ⟨_ | _ | _ | _, rest⟩
    all_goals rfl
  · rw [memberTurnOf, if_neg point, members]
    · rfl
    · rintro name rest rfl
      exact point rfl
    · rintro rest rfl
      exact point rfl

theorem agrees_members (e : Expr) : Agrees (loop memberTurn e) ts (members e ts) :=
  agrees_loop_of gains_memberTurn (fun e _ => agrees_memberTurn e) members_turn e

def operandOf (depth : Nat) (ts : List Token) : Except SyntaxError (Parsed Expr) :=
  if ts.head? = some (.punct '[') then do
    let (es, rest) ← itemsWithin depth ts.tail
    return (.array es, rest)
  else if ts.head? = some (.punct '\x7b') then do
    let (ps, rest) ← propertiesWithin depth ts.tail
    return (.object ps, rest)
  else atom ts

theorem exprWithin_succ :
    Script.exprWithin (depth + 1) ts = operandOf depth ts >>= fun p => members p.1 p.2 := by
  rw [Script.exprWithin, operandOf]
  split
  · rw [bind_assoc]
    rfl
  split
  · rw [bind_assoc]
    rfl
  · rfl

theorem agrees_operand {value : Reading Expr}
    (items_ok : ∀ rest, ts = .punct '[' :: rest →
      Agrees (loop (itemTurn value) []) rest (itemsWithin depth rest))
    (properties_ok : ∀ rest, ts = .punct '\x7b' :: rest →
      Agrees (loop (propertyTurn value) []) rest (propertiesWithin depth rest)) :
    Agrees (operand value) ts (operandOf depth ts) := by
  rcases ts with _ | ⟨_ | _ | _ | c, ts⟩
  · exact .next_bind_end (.fail nofun)
  · exact .next_bind .pure
  · exact .next_bind .pure
  · exact .next_bind agrees_literal
  · -- the productions look for brackets before they come to the minus sign
    refine .next_bind ?_
    dsimp only
    by_cases minus : c = '-'
    · subst minus
      exact agrees_negated
    by_cases bracket : c = '['
    · subst bracket
      exact (items_ok ts rfl).bind fun es rest _ => .pure
    by_cases brace : c = '\x7b'
    · subst brace
      exact (properties_ok ts rfl).bind fun ps rest _ => .pure
    · have stuck : atom (.punct c :: ts) = .error (.unexpectedToken (some (.punct c))) := by
        unfold atom
        exact if_neg minus
      rw [if_neg minus, if_neg bracket, if_neg brace, operandOf, if_neg (by simpa using bracket),
        if_neg (by simpa using brace), stuck]
      exact .fail nofun

theorem appended_nil (out : Except SyntaxError (Parsed (List α))) :
    out.map (appended id []) = out := by
  cases out <;> simp [Except.map, appended]

/-- A list of parts that are kept as they are read. -/
theorem agrees_parts {close : Char} {part : Reading α}
    {partOf : List Token → Except SyntaxError (Parsed α)}
    {again : List Token → Except SyntaxError (Parsed (List α))} {xs : List α} {bound : Nat}
    (keeps : Keeps part) (part_ok : Agrees part ts (partOf ts))
    (again_ok : ∀ xs rest, rest.length < ts.length →
      Agrees (turns (listTurn close part) bound xs) rest ((again rest).map (appended id xs))) :
    Agrees (turns (listTurn close part) (bound + 1) xs) ts
      ((listStep close partOf again ts).map (appended id xs)) := by
  have same : partOf ts = (partOf ts).map fun p => (id p.1, p.2) := by
    cases partOf ts <;> rfl
  rw [same] at part_ok
  exact agrees_list keeps part_ok again_ok

/-- By induction on the bound of the productions, which is larger than what is left to read, as are
the bounds of the machine. A list and the expression at its front begin at the same token, and each
of them takes one of the bound: hence twice the number of tokens. -/
theorem agrees_nested (depth : Nat) :
    (∀ ts level, 2 * ts.length < depth → ts.length < level →
      Agrees (exprWithin level) ts (Script.exprWithin depth ts)) ∧
    (∀ ts level bound es, 2 * ts.length + 1 < depth → ts.length < level → ts.length < bound →
      Agrees (turns (itemTurn (exprWithin level)) bound es) ts
        ((itemsWithin depth ts).map (appended id es))) ∧
    ∀ ts level bound ps, 2 * ts.length + 1 < depth → ts.length < level → ts.length < bound →
      Agrees (turns (propertyTurn (exprWithin level)) bound ps) ts
        ((propertiesWithin depth ts).map (appended id ps)) := by
  induction depth with
  | zero =>
    refine ⟨?_, ?_, ?_⟩
    · exact fun _ _ deep => absurd deep (Nat.not_lt_zero _)
    · exact fun _ _ _ _ deep => absurd deep (Nat.not_lt_zero _)
    · exact fun _ _ _ _ deep => absurd deep (Nat.not_lt_zero _)
  | succ depth ih =>
    obtain ⟨expr_ok, items_ok, properties_ok⟩ := ih
    refine ⟨?_, ?_, ?_⟩
    · intro ts level deep nested
      obtain ⟨level, rfl⟩ := Nat.exists_eq_add_one.2 (Nat.zero_lt_of_lt nested)
      rw [exprWithin_succ]
      refine (agrees_operand ?_ ?_).bind fun e rest _ => agrees_members e
      · rintro rest rfl
        rw [List.length_cons] at deep nested
        refine agrees_loop fun bound turning => ?_
        rw [← appended_nil (itemsWithin depth rest)]
        exact items_ok rest level bound [] (by omega) (by omega) turning
      · rintro rest rfl
        rw [List.length_cons] at deep nested
        refine agrees_loop fun bound turning => ?_
        rw [← appended_nil (propertiesWithin depth rest)]
        exact properties_ok rest level bound [] (by omega) (by omega) turning
    · intro ts level bound es deep nested turning
      obtain ⟨bound, rfl⟩ := Nat.exists_eq_add_one.2 (Nat.zero_lt_of_lt turning)
      rw [itemsWithin_succ]
      have keeps : Keeps (exprWithin level) := (consumes_exprWithin level).keeps
      refine agrees_parts keeps (expr_ok ts level (by omega) nested) fun es rest shorter => ?_
      exact items_ok rest level bound es (by omega) (by omega) (by omega)
    · intro ts level bound ps deep nested turning
      obtain ⟨bound, rfl⟩ := Nat.exists_eq_add_one.2 (Nat.zero_lt_of_lt turning)
      rw [propertiesWithin_succ]
      have keeps : Keeps (exprWithin level) := (consumes_exprWithin level).keeps
      have part_ok := agrees_property fun rest (shorter : rest.length < ts.length) =>
        expr_ok rest level (by omega) (by omega)
      refine agrees_parts (consumes_property keeps).keeps part_ok fun ps rest shorter => ?_
      exact properties_ok rest level bound ps (by omega) (by omega) (by omega)

theorem agrees_expr : Agrees expr ts (Script.expr ts) :=
  .get_bind fun _ left => (agrees_nested _).1 ts _ (by omega) (length_lt_place left)

theorem agrees_declaringWord :
    Agrees declaringWord ts
      (if startsDeclaration ts then .ok ((), ts.tail)
        else .error (.expectedDeclaration ts.head?)) := by
  have same {found missing : Except SyntaxError (Parsed Unit)} :
      (if startsDeclaration ts then found else missing) =
        if ts.head? = some (.ident "const") then found
        else if ts.head? = some (.ident "let") then found
        else if ts.head? = some (.ident "var") then found
        else missing := by
    simp only [startsDeclaration, Bool.or_eq_true, decide_eq_true_eq, ite_or]
  rw [same]
  refine .ifEat ?_ fun _ => .ifEat ?_ fun _ => .ifEat ?_ fun _ => .peek_bind (.fail (by simp))
  all_goals
    rintro rest rfl
    exact .pure

theorem agrees_declaration {exported : Bool} :
    Agrees (declaration exported) ts
      (if startsDeclaration ts then Script.declaration exported ts
        else .error (.expectedDeclaration ts.head?)) := by
  have same : (if startsDeclaration ts then Script.declaration exported ts
      else .error (.expectedDeclaration ts.head?)) =
      (if startsDeclaration ts then .ok ((), ts.tail)
        else .error (.expectedDeclaration ts.head?)) >>= fun p : Parsed Unit => do
          let name ← Script.identifier p.2
          let rest ← Script.expectPunct '=' name.2
          let init ← Script.expr rest
          return (.declare name.1 init.1 exported, init.2) := by
    split <;> rfl
  rw [same]
  refine agrees_declaringWord.bind fun _ rest _ => ?_
  refine agrees_identifier.bind fun name rest _ => ?_
  refine .expectPunct_bind fun rest _ => ?_
  exact agrees_expr.bind fun init rest _ => .pure

theorem agrees_exportStmt : Agrees exportStmt ts (Script.exportStmt ts) := by
  refine .ifEat ?_ fun _ => .ifEat ?_ fun _ => agrees_declaration
  · rintro rest rfl
    exact agrees_expr.bind fun e rest _ => .pure
  · rintro rest rfl
    refine Agrees.bind (agrees_loop fun bound turning => ?_) fun names rest _ => .pure
    rw [← appended_nil (aliases _ _)]
    exact agrees_aliases (Nat.lt_succ_self _) turning

theorem agrees_stmt : Agrees stmt ts (Script.stmt ts) := by
  refine .ifEat ?_ fun _ => .ifEat ?_ fun _ => .peek_bind ?_
  · rintro rest rfl
    exact agrees_exportStmt
  · rintro rest rfl
    exact agrees_expr.bind fun e rest _ => .pure
  · show Agrees (if startsDeclaration ts then _ else _) ts _
    have declares : Agrees (declaration false) ts _ := agrees_declaration
    split
    case isTrue starts =>
      rw [if_pos starts] at declares
      exact declares
    case isFalse => exact agrees_expr.bind fun e rest _ => .pure

theorem agrees_everything {t : Token} :
    Agrees everything ts (Script.everything (t :: ts)) :=
  .expectWord_bind fun _ _ => agrees_identifier.bind fun _ _ _ => .pure

theorem agrees_bindingGroup (bs : List Binding) :
    Agrees (bindingGroup bs) ts ((Script.bindingGroup ts).map fun p => (bs ++ p.1, p.2)) := by
  have same : (Script.bindingGroup ts).map (fun p => (bs ++ p.1, p.2)) =
      if ts.head? = some (.punct '*') then
        Script.everything ts >>= fun p => .ok (bs ++ [p.1], p.2)
      else
        Script.expectPunct '\x7b' ts >>= fun rest =>
          (aliases ts.length rest).map (appended namedBinding bs) := by
    rw [Script.bindingGroup]
    split
    · cases Script.everything ts <;> rfl
    · cases Script.expectPunct '\x7b' ts with
      | error e => rfl
      | ok rest =>
        simp only [Bind.bind, Except.bind]
        cases aliases ts.length rest <;> rfl
  rw [same]
  refine .ifEat ?_ fun _ => .expectPunct_bind ?_
  · rintro rest rfl
    exact agrees_everything.bind fun b rest _ => .pure
  · rintro rest rfl
    exact agrees_loop fun bound turning => agrees_aliases (Nat.lt_succ_self _) turning

theorem agrees_bindings : Agrees bindings ts (Script.bindings ts) := by
  have alone :
      (Script.bindingGroup ts).map (fun p => ([] ++ p.1, p.2)) = Script.bindingGroup ts := by
    cases Script.bindingGroup ts <;> rfl
  have group : Agrees (bindingGroup []) ts (Script.bindingGroup ts) :=
    alone ▸ agrees_bindingGroup []
  rcases ts with _ | ⟨name | _ | _ | c, ts⟩
  · exact .eat_bind_other nofun (.peek_bind group)
  · have same : Script.bindings (.ident name :: ts) =
        Script.identifier (.ident name :: ts) >>= fun p =>
          if p.2.head? = some (.punct ',') then
            (Script.bindingGroup p.2.tail).map fun q => ([.defaultExport p.1] ++ q.1, q.2)
          else .ok ([.defaultExport p.1], p.2) := by
      simp only [Script.bindings, Script.identifier, Bind.bind, Except.bind]
      split
      · cases Script.bindingGroup ts.tail <;> rfl
      · rfl
    rw [same]
    refine .eat_bind_other (by simp) (.peek_bind ?_)
    refine agrees_identifier.bind fun name rest _ => .ifEat ?_ fun _ => .pure
    rintro rest rfl
    exact agrees_bindingGroup _
  · exact .eat_bind_other (by simp) (.peek_bind group)
  · exact .eat_bind_other (by simp) (.peek_bind group)
  · by_cases star : c = '*'
    · subst star
      exact .eat_bind (agrees_everything.bind fun b rest _ => .pure)
    · exact .eat_bind_other (by simpa using star) (.peek_bind group)

theorem agrees_importDecl : Agrees importDecl ts (Script.importDecl ts) := by
  have bound (ts : List Token) (text : ∀ specifier rest, ts ≠ .str specifier :: rest) :
      Agrees (do
        let bs ← bindings
        expectWord "from"
        return ⟨← stringLiteral, bs⟩) ts (Script.importDecl ts) := by
    rw [Script.importDecl]
    · refine agrees_bindings.bind fun bs rest _ => .expectWord_bind fun rest _ => ?_
      exact agrees_stringLiteral.bind fun specifier rest _ => .pure
    · exact text
  refine .peek_bind ?_
  rcases ts with _ | ⟨_ | text | _ | _, ts⟩
  · exact bound [] nofun
  · exact bound _ nofun
  · show Agrees _ _
      (Script.stringLiteral (.str text :: ts) >>= fun p => .ok (Import.mk p.1 [], p.2))
    exact agrees_stringLiteral.bind fun specifier rest _ => .pure
  · exact bound _ nofun
  · exact bound _ nofun

def partOf (s : Script) (ts : List Token) : Except SyntaxError (Parsed Script) :=
  if ts.head? = some (.ident "import") then do
    let (i, rest) ← Script.importDecl ts.tail
    return ({ s with imports := s.imports ++ [i] }, rest)
  else do
    let (st, rest) ← Script.stmt ts
    return ({ s with body := s.body ++ [st] }, rest)

theorem agrees_part (s : Script) : Agrees (part s) ts (partOf s ts) := by
  refine .ifEat ?_ fun _ => agrees_stmt.bind fun st rest _ => .pure
  rintro rest rfl
  exact agrees_importDecl.bind fun i rest _ => .pure

def scriptTurnOf (s : Script) (ts : List Token) :
    Except SyntaxError (Parsed (ForInStep Script)) :=
  if ts.head? = none then .ok (.done s, ts)
  else if ts.head? = some (.punct ';') then .ok (.yield s, ts.tail)
  else do
    let (s, rest) ← partOf s ts
    return (.yield s, if rest.head? = some (.punct ';') then rest.tail else rest)

theorem agrees_scriptTurn (s : Script) : Agrees (scriptTurn s) ts (scriptTurnOf s ts) := by
  refine .peek_bind ?_
  rw [scriptTurnOf]
  split
  case isTrue done => exact .pure
  case isFalse =>
    refine .ifEat ?_ fun _ => (agrees_part s).bind fun s rest _ => ?_
    · rintro rest rfl
      exact .pure
    · by_cases mark : rest.head? = some (.punct ';')
      · simp only [if_pos mark]
        rw [eq_cons_of_head mark]
        exact .eat_bind .pure
      · simp only [if_neg mark]
        exact .eat_bind_other mark .pure

def scriptFrom (depth : Nat) (s : Script) (ts : List Token) : Except SyntaxError Script :=
  (scriptWithin depth ts).map fun t => ⟨s.imports ++ t.imports, s.body ++ t.body⟩

theorem scriptFrom_nil (s : Script) : scriptFrom depth s [] = .ok s := by
  simp [scriptFrom, scriptWithin, Except.map]

theorem scriptFrom_semicolon (s : Script) :
    scriptFrom (depth + 1) s (.punct ';' :: ts) = scriptFrom depth s ts := by
  simp [scriptFrom, scriptWithin]

theorem scriptFrom_part {s : Script} (nonempty : ts ≠ []) (part : ts.head? ≠ some (.punct ';')) :
    scriptFrom (depth + 1) s ts = partOf s ts >>= fun p => scriptFrom depth p.1 p.2 := by
  rw [scriptFrom, scriptWithin, if_neg part, partOf]
  · split
    · cases Script.importDecl ts.tail with
      | error e => rfl
      | ok p =>
        obtain ⟨i, rest⟩ := p
        simp only [Bind.bind, Except.bind, pure, Except.pure, scriptFrom]
        cases scriptWithin depth rest <;> simp [Except.map]
    · cases Script.stmt ts with
      | error e => rfl
      | ok p =>
        obtain ⟨st, rest⟩ := p
        simp only [Bind.bind, Except.bind, pure, Except.pure, scriptFrom]
        cases scriptWithin depth rest <;> simp [Except.map]
  · exact nonempty

theorem partOf_shorter {s t : Script} (h : partOf s ts = .ok (t, rest)) :
    rest.length < ts.length := by
  have read : Agrees (part s) ts (.ok (t, rest)) := h ▸ agrees_part s
  exact read.shorter (consumes_part s)

/-- Every part of a script takes a token at least, so a bound that is as large as the number of
tokens is as good as any other. -/
theorem scriptFrom_eq {bound : Nat} {s : Script} (deep : ts.length ≤ depth)
    (deep' : ts.length ≤ bound) : scriptFrom depth s ts = scriptFrom bound s ts := by
  induction depth generalizing bound s ts with
  | zero =>
    rw [List.eq_nil_of_length_eq_zero (Nat.le_zero.1 deep), scriptFrom_nil, scriptFrom_nil]
  | succ depth ih =>
    by_cases nonempty : ts = []
    · rw [nonempty, scriptFrom_nil, scriptFrom_nil]
    have some := List.length_pos_of_ne_nil nonempty
    obtain ⟨bound, rfl⟩ := Nat.exists_eq_add_one.2 (Nat.lt_of_lt_of_le some deep')
    by_cases mark : ts.head? = .some (.punct ';')
    · rw [eq_cons_of_head mark, scriptFrom_semicolon, scriptFrom_semicolon]
      refine ih ?_ ?_
      · rw [List.length_tail]
        omega
      · rw [List.length_tail]
        omega
    · rw [scriptFrom_part nonempty mark, scriptFrom_part nonempty mark]
      cases read : partOf s ts with
      | error e => rfl
      | ok p =>
        have shorter := partOf_shorter read
        exact ih (by omega) (by omega)

/-- What is read from a place on, where all tokens are used up in the end. -/
def toEnd (s : Script) (ts : List Token) : Except SyntaxError (Parsed Script) :=
  (scriptFrom ts.length s ts).map fun t => (t, [])

theorem toEnd_turn (s : Script) (ts : List Token) :
    toEnd s ts = scriptTurnOf s ts >>= onwards toEnd := by
  by_cases nonempty : ts = []
  · subst nonempty
    rw [toEnd, scriptFrom_nil]
    rfl
  have present : ts.head? ≠ none := by simpa using nonempty
  obtain ⟨bound, length⟩ := Nat.exists_eq_add_one.2 (List.length_pos_of_ne_nil nonempty)
  rw [scriptTurnOf, if_neg present, toEnd, length]
  by_cases mark : ts.head? = some (.punct ';')
  · rw [if_pos mark]
    rw [eq_cons_of_head mark] at length ⊢
    rw [scriptFrom_semicolon, ← Nat.succ.inj length]
    rfl
  · rw [if_neg mark, scriptFrom_part nonempty mark]
    cases read : partOf s ts with
    | error e => rfl
    | ok p =>
      obtain ⟨t, rest⟩ := p
      have shorter := partOf_shorter read
      -- the machine drops a semicolon in the turn of the part before it, the production in the next
      show (scriptFrom bound t rest).map _ =
        toEnd t (if rest.head? = some (.punct ';') then rest.tail else rest)
      rw [scriptFrom_eq (by omega) (Nat.le_refl rest.length)]
      split
      case isTrue semicolon =>
        rw [eq_cons_of_head semicolon, List.length_cons, scriptFrom_semicolon]
        rfl
      case isFalse => rfl

/-- The machine comes to what the tokens denote, with nothing left. -/
theorem agrees_script : Agrees script ts ((ofTokens ts).map fun s => (s, [])) := by
  have from_start : (ofTokens ts).map (fun s => (s, [])) = toEnd {} ts := by
    rw [toEnd, scriptFrom, ofTokens]
    cases scriptWithin ts.length ts <;> simp [Except.map]
  rw [from_start]
  exact agrees_loop_of gains_scriptTurn (fun s _ => agrees_scriptTurn s) toEnd_turn {}

/-- What a loop or an expression takes off the tokens, wherever it stands: every turn of a loop that
is not its last, every turn through a list, and every expression moves the position on. -/
structure Progress : Prop where
  parts : ∀ s, Gains goingOn (scriptTurn s)
  importedNames : ∀ bs, Consumes (aliasTurn namedBinding bs)
  exportedNames : ∀ names, Consumes (aliasTurn id names)
  items : ∀ depth es, Consumes (itemTurn (exprWithin depth) es)
  properties : ∀ depth ps, Consumes (propertyTurn (exprWithin depth) ps)
  members : ∀ e, Gains goingOn (memberTurn e)
  expressions : ∀ depth, Consumes (exprWithin depth)

theorem progress : Progress where
  parts := gains_scriptTurn
  importedNames := consumes_aliasTurn namedBinding
  exportedNames := consumes_aliasTurn id
  items depth := consumes_itemTurn (consumes_exprWithin depth).keeps
  properties depth := consumes_propertyTurn (consumes_exprWithin depth).keeps
  members := gains_memberTurn
  expressions := consumes_exprWithin

/-- The tokens of a source end in their only end mark. Reading them with a position comes to what
the source denotes, be it a script or a syntax error, so it never reads outside the tokens, where
every read would stop it, and no loop and no nest of expressions goes on for more turns than there
are tokens. It stops at a token, which is the end mark after a script. On the way, every turn of a
loop and every expression takes a token at least. -/
theorem script_stays_inside {source : String} {ts : List Token}
    (scanned : Token.scan source.toList = .ok ts) :
    (∃ front, withEnd ts = front ++ [none] ∧ none ∉ front) ∧
    (∀ c, (peek.run c).1 = .error .outside ↔ c.tokens.length ≤ c.pos) ∧
    parse source ≠ .error .tooDeep ∧
    (∃ c : Cursor, script.run ⟨withEnd ts, 0⟩ = ((parse source).mapError .syntaxError, c) ∧
      c.tokens = withEnd ts ∧ c.pos < c.tokens.length ∧
      ∀ s, parse source = .ok s → c.tokens[c.pos]? = some none) ∧
    Progress := by
  have parsed : parse source = ofTokens ts := by
    rw [parse, scanned]
    rfl
  have start : (⟨withEnd ts, 0⟩ : Cursor) = place ts ts := by
    rw [place, Nat.sub_self]
  have ends : Ends script ts ts ((ofTokens ts).map fun s => (s, [])) :=
    agrees_script List.suffix_rfl
  refine ⟨⟨ts.map some, rfl, by simp⟩, peek_outside_iff, ?_, ?_, progress⟩
  · rw [parsed]
    intro deep
    rw [deep] at ends
    cases ends with
    | error genuine => exact genuine rfl
  · rw [parsed, start]
    cases read : ofTokens ts with
    | ok s =>
      rw [read] at ends
      cases ends with
      | ok left run =>
        exact ⟨place ts [], run, rfl, pos_place_lt ts [], fun _ _ => getElem?_place List.nil_suffix⟩
    | error e =>
      rw [read] at ends
      cases ends with
      | @error _ rest _ _ run => exact ⟨place ts rest, run, rfl, pos_place_lt ts rest, nofun⟩

/-- A source that is cut off in an array, in an object and behind a minus sign. -/
theorem script_stays_inside_cut_off :
    Token.scan "x.y; [\x7bk: -".toList =
        .ok [.ident "x", .punct '.', .ident "y", .punct ';', .punct '[', .punct '\x7b', .ident "k",
          .punct ':', .punct '-'] ∧
      parse "x.y; [\x7bk: -" = .error (.expectedNumber none) ∧
      ∃ c : Cursor, script.run ⟨withEnd [.ident "x", .punct '.', .ident "y", .punct ';', .punct '[',
          .punct '\x7b', .ident "k", .punct ':', .punct '-'], 0⟩ =
        (.error (.syntaxError (.expectedNumber none)), c) ∧ c.pos < 10 := by
  have scanned : Token.scan "x.y; [\x7bk: -".toList =
      .ok [.ident "x", .punct '.', .ident "y", .punct ';', .punct '[', .punct '\x7b', .ident "k",
        .punct ':', .punct '-'] := by
    cbv
  have failed : parse "x.y; [\x7bk: -" = .error (.expectedNumber none) := by cbv
  obtain ⟨-, -, -, ⟨c, run, tokens, inside, -⟩, -⟩ := script_stays_inside scanned
  rw [failed] at run
  rw [tokens] at inside
  exact ⟨scanned, failed, c, run, inside⟩

end Reading

end CodeCache.Script
