import CodeCache.Proofs.Utf8
import CodeCache.Script.Payload

/-! # Reading back payloads

A reader of the payload format takes exactly the bytes that were written off the front of a byte
string and returns what was written. Counts and text lengths take eight bytes, so that this holds of
everything whose texts and lists are shorter than `2 ^ 64`, however long its bytes are. -/

namespace CodeCache.Payload

variable {α β : Type}

def SizedText (s : String) : Prop := (Text.Utf8.encode s).length < UInt64.size

def SizedList (sized : α → Prop) (xs : List α) : Prop :=
  xs.length < UInt64.size ∧ ∀ x ∈ xs, sized x

inductive SizedExpr : Expr → Prop where
  | null : SizedExpr .null
  | bool (b : Bool) : SizedExpr (.bool b)
  | int (i : Int64) : SizedExpr (.int i)
  | float (x : Number.Binary64) : SizedExpr (.float x)
  | str {s : String} (text : SizedText s) : SizedExpr (.str s)
  | array {es : List Expr} (count : es.length < UInt64.size) (items : ∀ e ∈ es, SizedExpr e) :
      SizedExpr (.array es)
  | object {ps : List (String × Expr)} (count : ps.length < UInt64.size)
      (keys : ∀ p ∈ ps, SizedText p.1) (values : ∀ p ∈ ps, SizedExpr p.2) : SizedExpr (.object ps)
  | ident {name : String} (text : SizedText name) : SizedExpr (.ident name)
  | member {e : Expr} {key : String} (target : SizedExpr e) (text : SizedText key) :
      SizedExpr (.member e key)

def SizedBinding : Binding → Prop
  | .defaultExport name | .everything name => SizedText name
  | .named imported name => SizedText imported ∧ SizedText name

def SizedImport (i : Import) : Prop := SizedText i.specifier ∧ SizedList SizedBinding i.bindings

def SizedPair (p : String × String) : Prop := SizedText p.1 ∧ SizedText p.2

def SizedStmt : Stmt → Prop
  | .declare name init _ => SizedText name ∧ SizedExpr init
  | .exportList names => SizedList SizedPair names
  | .exportDefault e | .throw e | .expr e => SizedExpr e

/-- All texts and lists of the script are shorter than `2 ^ 64`. -/
structure Sized (s : Script) : Prop where
  imports : SizedList SizedImport s.imports
  body : SizedList SizedStmt s.body

/-- Takes exactly these bytes off the front, whatever follows, and returns the value. -/
def Reads (read : Reader α) (bytes : Bytes) (x : α) : Prop :=
  ∀ rest, read (bytes ++ rest) = some (x, rest)

theorem Reads.pure (x : α) : Reads (pure x) [] x := fun _ => rfl

theorem Reads.bind {read : Reader α} {next : α → Reader β} {front back : Bytes} {x : α} {y : β}
    (h : Reads read front x) (k : Reads (next x) back y) :
    Reads (read >>= next) (front ++ back) y := by
  intro rest
  show (read (front ++ back ++ rest)).bind (fun p => next p.1 p.2) = _
  rw [List.append_assoc, h]
  exact k rest

theorem Reads.cast {read : Reader α} {bytes other : Bytes} {x : α} (h : Reads read bytes x)
    (same : other = bytes) : Reads read other x := same ▸ h

theorem Reads.map {read : Reader α} {bytes : Bytes} {x : α} (f : α → β) (h : Reads read bytes x) :
    Reads (do return f (← read)) bytes (f x) :=
  Reads.cast (h.bind (.pure (f x))) (List.append_nil bytes).symm

theorem reads_readBytes (bytes : Bytes) : Reads (readBytes bytes.length) bytes bytes := by
  intro rest
  simp [readBytes]

theorem reads_readNat {count n : Nat} (h : n < Nat.pow 256 count) :
    Reads (readNat count) (Bytes.ofNat count n) n := by
  intro rest
  have bytes := reads_readBytes (Bytes.ofNat count n) rest
  rw [Bytes.length_ofNat] at bytes
  show (readBytes count (Bytes.ofNat count n ++ rest)).bind
    (fun p => some (Bytes.toNat p.1, p.2)) = _
  rw [bytes, Option.bind_some, Bytes.toNat_ofNat count n h]

theorem reads_tag {n : Nat} (h : n < 9) : Reads readTag (tag n) n :=
  reads_readNat (by show n < 4294967296; omega)

theorem reads_size {n : Nat} (h : n < UInt64.size) : Reads readSize (size n) n := reads_readNat h

theorem reads_truth (b : Bool) : Reads readTruth (truth b) b := by
  cases b <;> exact fun _ => rfl

theorem length_text (s : String) : (text s).length = 8 + (Text.Utf8.encode s).length := by
  simp [text, size]

theorem reads_text {s : String} (sized : SizedText s) : Reads readText (text s) s := by
  refine (reads_size sized).bind (Reads.cast ((reads_readBytes _).bind ?_) (List.append_nil _).symm)
  rw [Text.Utf8.decode?_encode]
  exact .pure s

theorem reads_many {read : Reader α} {encode : α → Bytes} {xs : List α}
    (h : ∀ x ∈ xs, Reads read (encode x) x) :
    Reads (readMany read xs.length) (xs.flatMap encode) xs := by
  induction xs with
  | nil => exact .pure []
  | cons x xs ih =>
    have tail := ih fun y hy => h y (List.mem_cons_of_mem x hy)
    exact (h x List.mem_cons_self).bind (tail.map (x :: ·))

theorem reads_list {read : Reader α} {encode : α → Bytes} {xs : List α}
    (count : xs.length < UInt64.size) (h : ∀ x ∈ xs, Reads read (encode x) x) :
    Reads (readList read) (list encode xs) xs := (reads_size count).bind (reads_many h)

theorem length_le_flatMap {encode : α → Bytes} {xs : List α} {x : α} (h : x ∈ xs) :
    (encode x).length ≤ (xs.flatMap encode).length := by
  obtain ⟨before, after, rfl⟩ := List.mem_iff_append.1 h
  simp only [List.flatMap_append, List.flatMap_cons, List.length_append]
  omega

theorem length_list (encode : α → Bytes) (xs : List α) :
    (list encode xs).length = 8 + (xs.flatMap encode).length := by
  simp [list, size]

theorem items_eq (es : List Expr) : items es = es.flatMap expr := by
  induction es with
  | nil => rfl
  | cons e es ih => rw [items, List.flatMap_cons, ih]

def property (p : String × Expr) : Bytes := text p.1 ++ expr p.2

theorem properties_eq (ps : List (String × Expr)) : properties ps = ps.flatMap property := by
  induction ps with
  | nil => rfl
  | cons p ps ih => rw [properties, List.flatMap_cons, ih, property]

theorem length_tag (n : Nat) : (tag n).length = 4 := Bytes.length_ofNat 4 n

theorem expr_array (es : List Expr) : expr (.array es) = tag 5 ++ list expr es := by
  rw [expr, items_eq, list, List.append_assoc]

theorem expr_object (ps : List (String × Expr)) :
    expr (.object ps) = tag 6 ++ list property ps := by
  rw [expr, properties_eq, list, List.append_assoc]

theorem reads_tagged {n : Nat} {next : Nat → Reader α} {body : Bytes} {x : α} (h : n < 9)
    (hb : Reads (next n) body x) : Reads (readTag >>= next) (tag n ++ body) x :=
  (reads_tag h).bind hb

theorem reads_property {read : Reader Expr} {p : String × Expr} (key : SizedText p.1)
    (h : Reads read (expr p.2) p.2) : Reads (readProperty read) (property p) p :=
  (reads_text key).bind (h.map ((p.1, ·)))

/-- By induction on the depth: the bytes of a nested expression are fewer, which leaves room for it
one level further down. -/
theorem reads_expr {e : Expr} (sized : SizedExpr e) (depth : Nat)
    (deep : (expr e).length < depth) : Reads (readExprWithin depth) (expr e) e := by
  induction depth generalizing e with
  | zero => exact absurd deep (Nat.not_lt_zero _)
  | succ depth ih =>
    rw [readExprWithin]
    cases sized with
    | null => exact Reads.cast (reads_tagged (by decide) (.pure _)) (List.append_nil _).symm
    | bool b => exact reads_tagged (by decide) ((reads_truth b).map _)
    | int i =>
      have word : Reads (readNat 8) (Bytes.ofNat 8 i.toUInt64.toNat) i.toUInt64.toNat :=
        reads_readNat i.toUInt64.toNat_lt
      have back : (UInt64.ofNat i.toUInt64.toNat).toInt64 = i := by simp
      have value := word.map fun n => Expr.int (UInt64.ofNat n).toInt64
      rw [back] at value
      exact reads_tagged (by decide) value
    | float x =>
      have word : Reads (readNat 8) (Bytes.ofNat 8 x.bits.toNat) x.bits.toNat :=
        reads_readNat x.bits.toNat_lt
      have back : UInt64.ofNat x.bits.toNat = x.bits := by simp
      have value := word.map fun n => Expr.float ⟨UInt64.ofNat n⟩
      rw [back] at value
      exact reads_tagged (by decide) value
    | str text => exact reads_tagged (by decide) ((reads_text text).map _)
    | @array es count items =>
      rw [expr_array, List.length_append, length_list] at deep
      rw [expr_array]
      refine reads_tagged (by decide) (Reads.map _ (reads_list count ?_))
      intro e he
      have : (expr e).length ≤ (es.flatMap expr).length := length_le_flatMap he
      exact ih (items e he) (by omega)
    | @object ps count keys values =>
      rw [expr_object, List.length_append, length_list] at deep
      rw [expr_object]
      refine reads_tagged (by decide) (Reads.map _ (reads_list count ?_))
      intro p hp
      have part : (expr p.2).length ≤ (property p).length := by simp [property]
      have : (property p).length ≤ (ps.flatMap property).length := length_le_flatMap hp
      exact reads_property (keys p hp) (ih (values p hp) (by omega))
    | ident text => exact reads_tagged (by decide) ((reads_text text).map _)
    | @member e key target text =>
      have shape : expr (.member e key) = tag 8 ++ (expr e ++ Payload.text key) := by
        rw [expr, List.append_assoc]
      rw [shape, List.length_append, List.length_append, length_tag] at deep
      rw [shape]
      exact reads_tagged (by decide) ((ih target (by omega)).bind ((reads_text text).map _))

theorem reads_readExpr {e : Expr} (sized : SizedExpr e) : Reads readExpr (expr e) e := by
  intro rest
  have deep : (expr e).length < (expr e ++ rest).length + 1 := by
    rw [List.length_append]
    omega
  exact reads_expr sized _ deep rest

theorem reads_binding {b : Binding} (sized : SizedBinding b) : Reads readBinding (binding b) b := by
  rw [readBinding]
  cases b with
  | defaultExport name => exact reads_tagged (by decide) ((reads_text sized).map _)
  | named imported name =>
    rw [binding, List.append_assoc]
    exact reads_tagged (by decide) ((reads_text sized.1).bind ((reads_text sized.2).map _))
  | everything name => exact reads_tagged (by decide) ((reads_text sized).map _)

theorem reads_import {i : Import} (sized : SizedImport i) : Reads readImport (importDecl i) i := by
  obtain ⟨specifier, count, bindings⟩ := sized
  refine (reads_text specifier).bind (Reads.map _ (reads_list count ?_))
  intro b hb
  exact reads_binding (bindings b hb)

def pair (p : String × String) : Bytes := text p.1 ++ text p.2

theorem reads_pair {p : String × String} (sized : SizedPair p) : Reads readPair (pair p) p :=
  (reads_text sized.1).bind ((reads_text sized.2).map ((p.1, ·)))

theorem stmt_exportList (names : List (String × String)) :
    stmt (.exportList names) = tag 2 ++ list pair names := rfl

theorem reads_stmt {st : Stmt} (sized : SizedStmt st) : Reads readStmt (stmt st) st := by
  rw [readStmt]
  cases st with
  | declare name init exported =>
    rw [stmt, List.append_assoc, List.append_assoc]
    refine reads_tagged (by decide) ((reads_text sized.1).bind ?_)
    exact (reads_readExpr sized.2).bind ((reads_truth exported).map _)
  | exportDefault e => exact reads_tagged (by decide) ((reads_readExpr sized).map _)
  | exportList names =>
    obtain ⟨count, pairs⟩ := sized
    rw [stmt_exportList]
    refine reads_tagged (by decide) (Reads.map _ (reads_list count ?_))
    intro p hp
    exact reads_pair (pairs p hp)
  | throw e => exact reads_tagged (by decide) ((reads_readExpr sized).map _)
  | expr e => exact reads_tagged (by decide) ((reads_readExpr sized).map _)

theorem reads_script {s : Script} (sized : Sized s) : Reads readScript (encode s) s := by
  obtain ⟨⟨importCount, imports⟩, stmtCount, body⟩ := sized
  have front : Reads (readList readImport) (list importDecl s.imports) s.imports :=
    reads_list importCount fun i hi => reads_import (imports i hi)
  have back : Reads (readList readStmt) (list stmt s.body) s.body :=
    reads_list stmtCount fun st hst => reads_stmt (body st hst)
  exact front.bind (back.map _)

/-- What was written is read back, and bytes after it are ignored. -/
theorem decode_encode_append {s : Script} (sized : Sized s) (rest : Bytes) :
    decode (encode s ++ rest) = some s := by
  rw [decode, reads_script sized rest]
  rfl

theorem sizedText_of_length {s : String} (fits : (text s).length < UInt64.size) : SizedText s := by
  rw [length_text] at fits
  rw [SizedText]
  omega

theorem count_le_flatMap {encode : α → Bytes} {xs : List α} (pos : ∀ x, 0 < (encode x).length) :
    xs.length ≤ (xs.flatMap encode).length := by
  induction xs with
  | nil => simp
  | cons x xs ih =>
    have := pos x
    simp only [List.length_cons, List.flatMap_cons, List.length_append]
    omega

theorem sizedList_of_length {encode : α → Bytes} {sized : α → Prop} {xs : List α}
    (fits : (list encode xs).length < UInt64.size) (pos : ∀ x, 0 < (encode x).length)
    (h : ∀ x ∈ xs, (encode x).length < (list encode xs).length → sized x) :
    SizedList sized xs := by
  rw [length_list] at fits h
  have count : xs.length ≤ (xs.flatMap encode).length := count_le_flatMap pos
  refine ⟨by omega, fun x hx => h x hx ?_⟩
  have : (encode x).length ≤ (xs.flatMap encode).length := length_le_flatMap hx
  omega

theorem length_expr_pos (e : Expr) : 0 < (expr e).length := by
  cases e <;> simp only [expr, List.length_append, length_tag] <;> omega

theorem length_property_pos (p : String × Expr) : 0 < (property p).length := by
  rw [property, List.length_append, length_text]
  omega

theorem length_binding_pos (b : Binding) : 0 < (binding b).length := by
  cases b <;> simp only [binding, List.length_append, length_tag] <;> omega

theorem length_import_pos (i : Import) : 0 < (importDecl i).length := by
  rw [importDecl, List.length_append, length_text]
  omega

theorem length_pair_pos (p : String × String) : 0 < (pair p).length := by
  rw [pair, List.length_append, length_text]
  omega

theorem length_stmt_pos (st : Stmt) : 0 < (stmt st).length := by
  cases st <;> simp only [stmt, List.length_append, length_tag] <;> omega

/-- By induction on the number of bytes, which is smaller for every part. -/
theorem sizedExpr_of_length {e : Expr} (bound : Nat) (small : (expr e).length < bound)
    (fits : bound ≤ UInt64.size) : SizedExpr e := by
  induction bound generalizing e with
  | zero => exact absurd small (Nat.not_lt_zero _)
  | succ bound ih =>
    cases e with
    | null => exact .null
    | bool b => exact .bool b
    | int i => exact .int i
    | float x => exact .float x
    | str s =>
      simp only [expr, List.length_append, length_tag] at small
      exact .str (sizedText_of_length (by omega))
    | array es =>
      rw [expr_array, List.length_append, length_tag] at small
      obtain ⟨count, items⟩ : SizedList SizedExpr es := by
        refine sizedList_of_length (by omega) length_expr_pos ?_
        intro e _ shorter
        exact ih (by omega) (by omega)
      exact .array count items
    | object ps =>
      rw [expr_object, List.length_append, length_tag] at small
      obtain ⟨count, properties⟩ : SizedList (fun p => SizedText p.1 ∧ SizedExpr p.2) ps := by
        refine sizedList_of_length (by omega) length_property_pos ?_
        intro p _ shorter
        rw [property, List.length_append] at shorter
        exact ⟨sizedText_of_length (by omega), ih (by omega) (by omega)⟩
      exact .object count (fun p hp => (properties p hp).1) fun p hp => (properties p hp).2
    | ident name =>
      simp only [expr, List.length_append, length_tag] at small
      exact .ident (sizedText_of_length (by omega))
    | member target key =>
      simp only [expr, List.length_append, length_tag] at small
      exact .member (ih (by omega) (by omega)) (sizedText_of_length (by omega))

theorem sizedBinding_of_length {b : Binding} (fits : (binding b).length < UInt64.size) :
    SizedBinding b := by
  cases b with
  | defaultExport name | everything name =>
    simp only [binding, List.length_append, length_tag] at fits
    exact sizedText_of_length (by omega)
  | named imported name =>
    simp only [binding, List.length_append, length_tag] at fits
    exact ⟨sizedText_of_length (by omega), sizedText_of_length (by omega)⟩

theorem sizedImport_of_length {i : Import} (fits : (importDecl i).length < UInt64.size) :
    SizedImport i := by
  rw [importDecl, List.length_append] at fits
  refine ⟨sizedText_of_length (by omega), ?_⟩
  refine sizedList_of_length (by omega) length_binding_pos ?_
  intro b _ shorter
  exact sizedBinding_of_length (by omega)

theorem sizedPair_of_length {p : String × String} (fits : (pair p).length < UInt64.size) :
    SizedPair p := by
  rw [pair, List.length_append] at fits
  exact ⟨sizedText_of_length (by omega), sizedText_of_length (by omega)⟩

theorem sizedStmt_of_length {st : Stmt} (fits : (stmt st).length < UInt64.size) :
    SizedStmt st := by
  have value {e : Expr} (small : (expr e).length < UInt64.size) : SizedExpr e :=
    sizedExpr_of_length _ small (Nat.le_refl _)
  cases st with
  | declare name init exported =>
    simp only [stmt, List.length_append, length_tag] at fits
    exact ⟨sizedText_of_length (by omega), value (by omega)⟩
  | exportList names =>
    rw [stmt_exportList, List.length_append] at fits
    refine sizedList_of_length (by omega) length_pair_pos ?_
    intro p _ shorter
    exact sizedPair_of_length (by omega)
  | exportDefault e | throw e | expr e =>
    simp only [stmt, List.length_append, length_tag] at fits
    exact value (by omega)

/-- A script is sized if its payload is shorter than `2 ^ 64`. -/
theorem sized_of_length {s : Script} (fits : (encode s).length < UInt64.size) : Sized s := by
  rw [encode, List.length_append] at fits
  constructor
  · refine sizedList_of_length (by omega) length_import_pos ?_
    intro i _ shorter
    exact sizedImport_of_length (by omega)
  · refine sizedList_of_length (by omega) length_stmt_pos ?_
    intro st _ shorter
    exact sizedStmt_of_length (by omega)

theorem decode_encode {s : Script} (fits : (encode s).length < UInt64.size) :
    decode (encode s) = some s := by
  simpa using decode_encode_append (sized_of_length fits) []

end CodeCache.Payload
