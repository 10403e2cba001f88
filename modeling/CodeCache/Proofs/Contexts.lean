import CodeCache.Proofs.Accounting
import CodeCache.Proofs.Grammar

/-! # What a run reads of its context

A body looks up the names that stand in it as values and the local names of its export lists, and
nothing else. The globals of a context reach a run through the bodies of the blobs it decodes, each
of which is then the body of a module. So contexts that agree on the names in these bodies cannot be
told apart by what the run gives. -/

namespace CodeCache

def Expr.name? : Expr → Option String
  | .ident name => some name
  | _ => none

def Expr.names (e : Expr) : List String := e.parts.filterMap Expr.name?

/-- The names of values, or the local names of an export list. -/
def Stmt.names : Stmt → List String
  | .declare _ e _ | .exportDefault e | .throw e | .expr e => e.names
  | .exportList pairs => pairs.map (·.1)

def Script.names (s : Script) : List String := s.body.flatMap Stmt.names

section

variable {globals other : Scope}

mutual
theorem Expr.eval_congr {e : Expr} (agree : ∀ name ∈ e.names, globals name = other name) :
    e.eval globals = e.eval other := by
  match e with
  | .null | .bool _ | .int _ | .float _ | .str _ => rfl
  | .array es =>
    simp only [Expr.names, Expr.parts, List.filterMap_cons, Expr.name?] at agree
    rw [Expr.eval, Expr.eval, Expr.evalItems_congr agree]
  | .object ps =>
    simp only [Expr.names, Expr.parts, List.filterMap_cons, Expr.name?] at agree
    rw [Expr.eval, Expr.eval, Expr.evalProperties_congr agree]
  | .ident name =>
    rw [Expr.eval, Expr.eval, agree name (by simp [Expr.names, Expr.parts, Expr.name?])]
  | .member target key =>
    simp only [Expr.names, Expr.parts, List.filterMap_cons, Expr.name?] at agree
    rw [Expr.eval, Expr.eval, Expr.eval_congr agree]
theorem Expr.evalItems_congr {es : List Expr}
    (agree : ∀ name ∈ (itemParts es).filterMap Expr.name?, globals name = other name) :
    Expr.evalItems globals es = Expr.evalItems other es := by
  match es with
  | [] => rfl
  | e :: es =>
    simp only [itemParts, List.filterMap_append, List.forall_mem_append] at agree
    rw [Expr.evalItems, Expr.evalItems, Expr.eval_congr agree.1, Expr.evalItems_congr agree.2]
theorem Expr.evalProperties_congr {done : Fields} {ps : List (String × Expr)}
    (agree : ∀ name ∈ (propertyParts ps).filterMap Expr.name?, globals name = other name) :
    Expr.evalProperties globals done ps = Expr.evalProperties other done ps := by
  match ps with
  | [] => rfl
  | (key, e) :: ps =>
    simp only [propertyParts, List.filterMap_append, List.forall_mem_append] at agree
    rw [Expr.evalProperties, Expr.evalProperties, Expr.eval_congr agree.1]
    refine bind_congr fun v => ?_
    exact Expr.evalProperties_congr agree.2
end

namespace Script

theorem Frame.scope_congr (f : Frame) {name : String} (agree : globals name = other name) :
    f.scope globals name = f.scope other name := by
  simp only [Frame.scope, agree]

theorem evaluated_congr (f : Frame) {e : Expr}
    (agree : ∀ name ∈ e.names, globals name = other name) :
    evaluated globals f e = evaluated other f e := by
  have same : e.eval (f.scope globals) = e.eval (f.scope other) :=
    Expr.eval_congr fun name member => f.scope_congr (agree name member)
  rw [evaluated, evaluated, same]

theorem exportLocals_congr {f : Frame} {pairs : List (String × String)}
    (agree : ∀ name ∈ pairs.map (·.1), globals name = other name) :
    exportLocals globals f pairs = exportLocals other f pairs := by
  induction pairs generalizing f with
  | nil => rfl
  | cons pair pairs ih =>
    rw [List.map_cons, List.forall_mem_cons] at agree
    rw [exportLocals, exportLocals, f.scope_congr agree.1]
    cases f.scope other pair.1 with
    | none => rfl
    | some v => exact ih agree.2

theorem runStmt_congr {f : Frame} {st : Stmt}
    (agree : ∀ name ∈ st.names, globals name = other name) :
    runStmt globals f st = runStmt other f st := by
  cases st with
  | declare | exportDefault | throw | expr => rw [runStmt, runStmt, evaluated_congr f agree]
  | exportList pairs => exact exportLocals_congr agree

theorem runBody_congr {locals : Fields} {body : List Stmt}
    (agree : ∀ name ∈ body.flatMap Stmt.names, globals name = other name) :
    runBody globals locals body = runBody other locals body := by
  have frames (f : Frame) : body.foldlM (runStmt globals) f = body.foldlM (runStmt other) f := by
    induction body generalizing f with
    | nil => rfl
    | cons st body ih =>
      rw [List.flatMap_cons, List.forall_mem_append] at agree
      rw [List.foldlM_cons, List.foldlM_cons, runStmt_congr agree.1]
      exact bind_congr fun f => ih agree.2 f
  rw [runBody, runBody, frames]

theorem run_congr {script : Script} (agree : ∀ name ∈ script.names, globals name = other name)
    (exportsOf : String → Except LoadError Fields) :
    script.run globals exportsOf = script.run other exportsOf := by
  rw [Script.run, Script.run]
  exact bind_congr fun locals => runBody_congr agree

end Script

end

namespace State

theorem retains_bind {α β : Type} {f : α → Action β} (hf : ∀ x s, Retains s ((f x).run s).2)
    (a : Action α) (s : State) : Retains (a.run s).2 ((a >>= f).run s).2 := by
  rw [Action.run_bind]
  rcases a.run s with ⟨_ | x, t⟩
  · exact .refl t
  · exact hf x t

/-- Two accounts of what is behind specifiers gather the same when they agree on every specifier
that the pass resolves on its way to the last state. -/
theorem Resolves.gather_congr {resolve : Resolver} {contexts : Entries Fields}
    {context : Option String} {exports other : String → Except LoadError Fields}
    (resolves : Resolves resolve contexts context exports)
    (steps : ∀ specifier referrer s, Retains s ((resolve specifier referrer).run s).2)
    {depth : Nat} {referrer : ModuleId} {r : ModuleRecord} (here : r.context = context)
    {specifiers : List String} (nodup : specifiers.Nodup) {seen : Seen}
    (unseen : ∀ specifier ∈ specifiers, Entries.get? seen specifier = none) {s last : State}
    (same : s.contexts = contexts) (record : s.modules[referrer]? = some r)
    (retained : Retains ((State.linkImports resolve (linkWithin resolve (depth + 1)) referrer
      specifiers seen).run s).2 last)
    (agree : ∀ specifier (v : State), v.contexts = contexts → s.modules.length ≤ v.modules.length →
      v.modules[referrer]? = some r → Retains ((resolve specifier referrer).run v).2 last →
        exports specifier = other specifier) :
    Loader.gather exports specifiers = Loader.gather other specifiers := by
  induction specifiers generalizing seen s with
  | nil => rfl
  | cons specifier rest ih =>
    have linkDep := fun id seen => retains_elementary.linkWithin steps (depth + 1) id seen
    have once := run_resolveOnce_of_unseen (unseen specifier List.mem_cons_self) resolve referrer s
    have first := resolves.once same record here (unseen specifier List.mem_cons_self)
    have later : Retains ((resolve specifier referrer).run
        { s with events := s.events ++ [.resolve specifier referrer] }).2 last := by
      rw [← once]
      refine .trans (retains_bind ?_ _ s) retained
      intro dep
      refine retains_elementary.bind (linkDep dep _) ?_
      intro seen
      refine retains_elementary.bind (retains_elementary.linkImports steps linkDep _ _ _) ?_
      exact fun _ => .refl
    have agreed := agree specifier { s with events := s.events ++ [.resolve specifier referrer] }
      same (Nat.le_refl _) record later
    rw [Loader.gather, Loader.gather, ← agreed]
    cases h : exports specifier with
    | error e => rfl
    | ok offered =>
      rw [h] at first
      cases first with
      | @makes _ id _ t keeps run new made holds =>
        obtain ⟨t', r', linked, only, _, _⟩ :=
          run_linkWithin_of_offers resolve depth (seen.insert specifier id) made holds
        have stays : Keeps s.modules.length s t' := keeps.trans (only.keeps new)
        have old : referrer < s.modules.length := (List.getElem?_eq_some_iff.1 record).1
        have others : Loader.gather exports rest = Loader.gather other rest := by
          refine ih (List.nodup_cons.1 nodup).2 (unseen_insert id nodup unseen)
            (stays.contexts.trans same) (stays.found old record) ?_ ?_
          · rw [State.linkImports, Action.run_bind_ok run, Action.run_bind_ok linked] at retained
            refine .trans (retains_bind ?_ _ t') retained
            exact fun _ => .refl
          · intro specifier v same grown record retained
            exact agree specifier v same (Nat.le_trans stays.size grown) record retained
        rw [others]

/-- The end of a link pass keeps what finding the imports made. -/
theorem retains_link {resolve : Resolver} {s : State} {id : ModuleId} {r : ModuleRecord}
    (found : s.modules[id]? = some r) (status : r.status = .unlinked) :
    Retains ((State.linkImports resolve (linkWithin resolve (s.modules.length + 1)) id
        r.body.specifiers []).run
          (({ s with events := s.events ++ [.link id] } : State).modified id
            ({ · with status := .linking }))).2
      ((link resolve id).run s).2 := by
  rw [run_link]
  refine .trans ?_ (retains_bind (f := fun _ => Pure.pure ()) (fun _ => .refl) _ _)
  generalize pass : (State.linkImports resolve (linkWithin resolve (s.modules.length + 1)) id
    r.body.specifiers []).run _ = result
  obtain ⟨_ | ⟨seen, deps⟩, t⟩ := result
  · rw [run_linkWithin_of_error (s := { s with events := s.events ++ [.link id] }) found status
      pass]
    exact retains_elementary.change id (.status _) t
  · rw [run_linkWithin_of_ok (s := { s with events := s.events ++ [.link id] }) found status pass]
    exact retains_elementary.change id (.linked _) t

theorem Resolves.gather_of_link {resolve : Resolver} {context : Option String}
    {exports other : String → Except LoadError Fields} {s last : State} {id : ModuleId}
    {script : Script} (resolves : Resolves resolve s.contexts context exports)
    (steps : ∀ specifier referrer s, Retains s ((resolve specifier referrer).run s).2)
    (record : s.modules[id]? = some { body := .source script, context })
    (retained : Retains ((link resolve id).run s).2 last)
    (agree : ∀ specifier (v : State) (r : ModuleRecord), v.contexts = s.contexts →
      s.modules.length ≤ v.modules.length → v.modules[id]? = some r → r.context = context →
        Retains ((resolve specifier id).run v).2 last → exports specifier = other specifier) :
    Loader.gather exports script.specifiers = Loader.gather other script.specifiers := by
  let start := ({ s with events := s.events ++ [.link id] } : State).modified id
    ({ · with status := .linking })
  have size : start.modules.length = s.modules.length := (onlyAt_modified _ id _).size
  have marked : start.modules[id]? = _ :=
    getElem?_modified (s := { s with events := s.events ++ [.link id] }) record _
  have unseen : ∀ specifier ∈ script.specifiers, Entries.get? ([] : Seen) specifier = none :=
    fun _ _ => rfl
  refine resolves.gather_congr steps rfl (nodup_specifiers script) unseen (s := start) rfl marked
    ((retains_link record rfl).trans retained) ?_
  intro specifier v same grown found kept
  exact agree specifier v _ same (size ▸ grown) found rfl kept

end State

def ModuleBody.script? : ModuleBody → Option Script
  | source script => some script
  | _ => none

def State.scriptsFrom (n : Nat) (s : State) : List Script :=
  (s.modules.drop n).filterMap (·.body.script?)

theorem State.mem_scriptsFrom {n i : Nat} {s : State} {r : ModuleRecord} {script : Script}
    (later : n ≤ i) (found : s.modules[i]? = some r) (body : r.body = .source script) :
    script ∈ s.scriptsFrom n := by
  refine List.mem_filterMap.2 ⟨r, ?_, by rw [body]; rfl⟩
  refine List.mem_iff_getElem?.2 ⟨i - n, ?_⟩
  rw [List.getElem?_drop, Nat.add_sub_cancel' later]
  exact found

theorem State.Retains.mem_scriptsFrom {n i : Nat} {s t : State} {r : ModuleRecord}
    {script : Script} (retained : Retains s t) (later : n ≤ i) (found : s.modules[i]? = some r)
    (body : r.body = .source script) : script ∈ t.scriptsFrom n := by
  obtain ⟨r', found', _, _, body'⟩ := retained i r found
  rw [body] at body'
  exact State.mem_scriptsFrom later found' (by rcases body' with same | same <;> exact same)

theorem State.scriptsFrom_subset {n m : Nat} (s : State) (h : n ≤ m) :
    s.scriptsFrom m ⊆ s.scriptsFrom n := by
  intro script member
  obtain ⟨r, listed, body⟩ := List.mem_filterMap.1 member
  refine List.mem_filterMap.2 ⟨r, ?_, body⟩
  exact (List.drop_sublist_drop_left s.modules h).subset listed

namespace Loader

open State (Yields Retains)

variable {l : Loader} {m : Memory} {context : Option String} {globals : Scope}

/-- What a blob exports is the same over other globals that agree on the names in the scripts made
from here to the last state, if that holds of the blobs it imports. -/
theorem interpretBlob_congr {pathExports otherPath : Path → Except LoadError Fields}
    {runImport : Option String → Path → Action ModuleId} {s last : State}
    (yields : ∀ v : State, v.contexts = s.contexts → ∀ p,
      Yields ModuleRecord.Exports (runImport context p) v (pathExports p))
    (steps : ∀ context p v, Retains v ((runImport context p).run v).2)
    (origin : Option Path) (blob : Bytes)
    (retained : Retains ((l.runBlob (l.resolveImport runImport) origin context blob).run s).2 last)
    (reads : ∀ script ∈ last.scriptsFrom s.modules.length, ∀ name ∈ script.names,
      s.globals context name = globals name)
    (agree : ∀ (v : State) (p : Path), v.contexts = s.contexts →
      s.modules.length ≤ v.modules.length → Retains ((runImport context p).run v).2 last →
        pathExports p = otherPath p) :
    l.interpretBlob pathExports (s.globals context) origin blob =
      l.interpretBlob otherPath globals origin blob := by
  rw [interpretBlob, interpretBlob]
  cases decoded : l.decodeBlob origin blob with
  | error e => rfl
  | ok script =>
    obtain ⟨t, opened, keeps, record⟩ := openBlob_of_ok decoded context s
    have resolving := State.retains_stepwise.resolveImport l steps
    rw [runBlob, Action.run_bind_ok opened] at retained
    -- The script is that of a module which the rest of the run keeps.
    have kept : Retains t last :=
      .trans (State.retains_stepwise.finish resolving s.modules.length t) retained
    have names := reads script (kept.mem_scriptsFrom (Nat.le_refl _) record rfl)
    have linked :
        Retains ((State.link (l.resolveImport runImport) s.modules.length).run t).2 last := by
      refine .trans (State.retains_bind ?_ _ t) retained
      intro _
      exact State.retains_stepwise.bind (State.retains_stepwise.evaluate _) fun _ => .refl
    have resolves := resolveImport_resolves (l := l) yields
    rw [← keeps.contexts] at resolves
    have gathers : gather (l.importExports pathExports) script.specifiers =
        gather (l.importExports otherPath) script.specifiers := by
      refine resolves.gather_of_link resolving record linked ?_
      intro specifier v r same grown found here kept
      rw [run_resolveImport l runImport specifier found, here] at kept
      rw [importExports, importExports]
      by_cases bytecode : l.config.isBytecode specifier = true
      · rw [if_pos bytecode] at kept
        rw [if_pos bytecode, if_pos bytecode]
        exact agree v _ (same.trans keeps.contexts) (Nat.le_trans keeps.size grown) kept
      · rw [if_neg bytecode, if_neg bytecode]
    show l.interpretScript pathExports _ script = l.interpretScript otherPath _ script
    rw [interpretScript, interpretScript, gathers]
    exact bind_congr fun found => Script.run_congr names _

/-- By induction on the depth: the scripts that an import makes are among those that its importer
has made in the end. -/
theorem interpretPath_congr (hm : l.storage = .memory m) {last : State} (depth : Nat)
    (chain : List Path) (deep : m.unvisited chain < depth) (p : Path) (s : State)
    (retained : Retains ((l.runPathWithin depth chain context p).run s).2 last)
    (reads : ∀ script ∈ last.scriptsFrom s.modules.length, ∀ name ∈ script.names,
      s.globals context name = globals name) :
    l.interpretPath m (s.globals context) chain p = l.interpretPath m globals chain p := by
  induction depth generalizing chain p s with
  | zero => exact absurd deep (Nat.not_lt_zero _)
  | succ depth ih =>
    rw [interpretPath, interpretPath]
    by_cases cycle : chain.any (·.same p) = true
    · rw [dif_pos cycle, dif_pos cycle]
    rw [dif_neg cycle, dif_neg cycle]
    split
    · rfl
    · rename_i blob file
      have shallower := Memory.unvisited_lt file (Bool.eq_false_iff.2 cycle)
      rw [runPathWithin, if_neg cycle, readBlob_of_found hm file] at retained
      refine interpretBlob_congr ?_ ?_ (some p) blob retained reads ?_
      · intro v same next
        rw [← State.globals_congr same]
        exact runPathWithin_yields hm context depth (chain ++ [p]) (by omega) next v
      · exact fun context next v => State.retains_stepwise.runPathWithin l depth _ context next v
      · intro v next same grown kept
        rw [← State.globals_congr same] at reads ⊢
        refine ih (chain ++ [p]) (by omega) next v kept ?_
        exact fun script member => reads script (last.scriptsFrom_subset grown member)

theorem interpret_congr (hm : l.storage = .memory m) (origin : BlobOrigin) (s : State)
    (reads : ∀ script ∈ ((l.run context origin).run s).2.scriptsFrom s.modules.length,
      ∀ name ∈ script.names, s.globals context name = globals name) :
    l.interpret m (s.globals context) origin = l.interpret m globals origin := by
  have bound := unvisited_lt_pathBound hm []
  cases origin with
  | path p => exact interpretPath_congr hm _ [] bound p s (.refl _) reads
  | bytes blob =>
    refine interpretBlob_congr ?_ ?_ none blob (.refl _) reads ?_
    · intro v same next
      rw [← State.globals_congr same]
      exact runPath_yields hm context next v
    · exact fun context next v => State.retains_stepwise.runPathWithin l _ [] context next v
    · intro v next same grown kept
      rw [← State.globals_congr same] at reads ⊢
      refine interpretPath_congr hm _ [] bound next v kept ?_
      exact fun script member => reads script (State.scriptsFrom_subset _ grown member)

/-- The scripts of the blobs that a run decodes, each of which becomes the body of a module. -/
def decoded (l : Loader) (context : Option String) (origin : BlobOrigin) (s : State) :
    List Script :=
  ((l.run context origin).run s).2.scriptsFrom s.modules.length

/-- Contexts that agree on the names in the decoded scripts give the same namespace or the same
error, and a context without globals is as good as none. -/
theorem run_contexts (hm : l.storage = .memory m) (origin : BlobOrigin) (s : State) :
    (∀ context other : Option String,
      (∀ script ∈ l.decoded context origin s, ∀ name ∈ script.names,
        s.globals context name = s.globals other name) →
      ((l.runNamespace context origin).run s).1 = ((l.runNamespace other origin).run s).1) ∧
    ∀ context : String, (∀ name, s.globals (some context) name = none) →
      ((l.runNamespace (some context) origin).run s).1 =
        ((l.runNamespace none origin).run s).1 := by
  have same (context other : Option String)
      (agree : ∀ script ∈ l.decoded context origin s, ∀ name ∈ script.names,
        s.globals context name = s.globals other name) :
      ((l.runNamespace context origin).run s).1 = ((l.runNamespace other origin).run s).1 := by
    rw [outcome_runNamespace hm, outcome_runNamespace hm]
    exact interpret_congr hm origin s agree
  exact ⟨same, fun context empty => same (some context) none fun _ _ name _ => empty name⟩

def readsGlobalScript : Script := { body := [.exportDefault (.ident "answer")] }

theorem parse_readsGlobal : Script.parse Sample.readsGlobal = .ok readsGlobalScript := by
  cbv

def neighbours : State where
  contexts := [("first", [("answer", .int 42), ("other", .int 1)]),
    ("second", [("answer", .int 42), ("other", .int 2)]), ("empty", [])]

theorem decoded_readsGlobal {blob : Bytes}
    (read : (plain 1).decodeBlob none blob = .ok readsGlobalScript) :
    (plain 1).decoded (some "first") (.bytes blob) neighbours = [readsGlobalScript] := by
  have ran : readsGlobalScript.run (neighbours.globals (some "first")) (gathered []) =
      .ok [("default", .int 42)] := rfl
  have exported : (plain 1).interpret {} (neighbours.globals (some "first")) (.bytes blob) =
      .ok [("default", .int 42)] := interpretBlob_eq_ok.2 ⟨_, [], read, rfl, ran⟩
  obtain ⟨tree, unfolds, makes⟩ := tree_of_interpret (l := plain 1) rfl exported
  obtain rfl : tree = ⟨readsGlobalScript, [("default", .int 42)], .none⟩ :=
    UnfoldsTo.unique unfolds ⟨read, .none, ran⟩
  obtain ⟨events, run⟩ := makes neighbours rfl
  rw [decoded, run]
  rfl

theorem run_contexts_readsGlobal :
    ∃ blob, (plain 1).build.compile Sample.readsGlobal = .ok blob ∧
      neighbours.globals (some "first") "other" ≠ neighbours.globals (some "second") "other" ∧
      (((plain 1).runNamespace (some "first") (.bytes blob)).run neighbours).1 =
        (((plain 1).runNamespace (some "second") (.bytes blob)).run neighbours).1 ∧
      (((plain 1).runNamespace (some "empty") (.bytes blob)).run neighbours).1 =
        (((plain 1).runNamespace none (.bytes blob)).run neighbours).1 := by
  have compiled := Build.compile_eq parse_readsGlobal (plain 1).build
  have read := decodeBlob_plain (l := plain 1) rfl rfl parse_readsGlobal (by decide) (by decide)
    (plain 1).build.fingerprint none
  obtain ⟨agree, empty⟩ := run_contexts (l := plain 1) (m := {}) rfl (.bytes _) neighbours
  have differ : some (Value.int 1) ≠ some (.int 2) := by simp
  refine ⟨_, compiled, differ, agree _ _ ?_, empty "empty" fun _ => rfl⟩
  rw [decoded_readsGlobal read]
  simp [readsGlobalScript, Script.names, Stmt.names, Expr.names, Expr.parts, Expr.name?]
  rfl

end Loader

end CodeCache
