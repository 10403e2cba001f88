import CodeCache.Proofs.Isolation
import CodeCache.Proofs.Operations

/-! # Evaluated modules depend on evaluated modules

An evaluation answers well for a module that is being evaluated already, so that a cycle of imports
is followed once around. But a body is run only after the exports of all its imports were asked for,
and a module that has not come to its end has none. So evaluated modules were evaluated after
everything they depend on, and no module on a cycle ever is. -/

namespace CodeCache

open Relation (ReflTransGen TransGen)
open ModuleRecord (LinkMove EvalMove Moves)

namespace Entries

theorem get?_of_mem {α : Type} {es : Entries α} {key : String} {value : α} (nodup : (keys es).Nodup)
    (member : (key, value) ∈ es) : get? es key = some value := by
  induction es with
  | nil => cases member
  | cons e es ih =>
    obtain ⟨fresh, nodup⟩ := List.nodup_cons.1 nodup
    rcases List.mem_cons.1 member with rfl | member
    · exact if_pos rfl
    · have other : e.1 ≠ key := by
        rintro rfl
        exact fresh (List.mem_map.2 ⟨_, member, rfl⟩)
      rw [get?, if_neg other]
      exact ih nodup member

end Entries

namespace Script

theorem import_of_mem_specifiers {script : Script} {specifier : String}
    (member : specifier ∈ script.specifiers) : ∃ i ∈ script.imports, i.specifier = specifier := by
  rw [State.specifiers_eq, List.mem_eraseDups] at member
  exact List.mem_map.1 member

theorem exportsOf_of_run {script : Script} {globals : Scope}
    {exportsOf : String → Except LoadError Fields} {exports : Fields}
    (ran : script.run globals exportsOf = .ok exports) {i : Import} (member : i ∈ script.imports) :
    ∃ offered, exportsOf i.specifier = .ok offered := by
  obtain ⟨locals, bound, _⟩ := bind_eq_ok.1 ran
  have step (imports : List Import) (locals : Fields) {result : Fields}
      (bound : imports.foldlM (bindImport exportsOf) locals = .ok result) (member : i ∈ imports) :
      ∃ offered, exportsOf i.specifier = .ok offered := by
    induction imports generalizing locals with
    | nil => cases member
    | cons j imports ih =>
      obtain ⟨locals', first, others⟩ := foldlM_cons_eq_ok.1 bound
      rcases List.mem_cons.1 member with rfl | later
      · obtain ⟨offered, found, _⟩ := bind_eq_ok.1 first
        exact ⟨offered, found⟩
      · exact ih locals' others later
  exact step script.imports [] bound member

end Script

def ModuleRecord.Named (r : ModuleRecord) : Prop :=
  r.status = .unlinked ∨ r.deps.map (·.1) = r.body.specifiers

namespace State

variable {s t : State} {id i j : ModuleId} {r : ModuleRecord}

def Evaluated (s : State) (id : ModuleId) : Prop :=
  ∃ r : ModuleRecord, s.modules[id]? = some r ∧ r.status = .evaluated

inductive Grounded (s : State) : ModuleId → Prop where
  | intro {id : ModuleId} {r : ModuleRecord} (found : s.modules[id]? = some r)
      (evaluated : r.status = .evaluated) (deps : ∀ dep ∈ r.deps, Grounded s dep.2) :
      Grounded s id

theorem Grounded.evaluated (h : s.Grounded id) : s.Evaluated id := by
  cases h with
  | intro found evaluated => exact ⟨_, found, evaluated⟩

theorem Grounded.of_dependsOn (h : s.Grounded i) (edge : s.DependsOn i j) : s.Grounded j := by
  obtain ⟨r, found, dep, member, rfl⟩ := edge
  cases h with
  | intro found' _ deps =>
    cases found.symm.trans found'
    exact deps dep member

theorem Grounded.acyclic (h : s.Grounded i) : ¬TransGen s.DependsOn i i := by
  -- Along the order of evaluation: the cycle goes through a dependency, which was evaluated before.
  induction h with
  | @intro i r found _ deps ih =>
    intro cycle
    obtain ⟨j, ⟨r', found', dep, member, rfl⟩, back⟩ := TransGen.head'_iff.1 cycle
    cases found.symm.trans found'
    exact ih dep member (.tail' back ⟨r, found, dep, member, rfl⟩)

theorem Grounded.mono (h : s.Grounded i)
    (kept : ∀ (i : ModuleId) (r : ModuleRecord), s.modules[i]? = some r → r.status = .evaluated →
      t.modules[i]? = some r) : t.Grounded i := by
  induction h with
  | intro found evaluated _ ih => exact .intro (kept _ _ found evaluated) evaluated ih

structure Sound (s : State) : Prop where
  closed : ∀ i, s.Evaluated i → s.Grounded i
  named : ∀ (i : ModuleId) (r : ModuleRecord), s.modules[i]? = some r → r.Named

/-- The imports of a body that has run were evaluated. -/
theorem evaluated_of_runModule {exports : Fields} (named : r.deps.map (·.1) = r.body.specifiers)
    (ran : t.runModule r = .ok exports) {dep : String × ModuleId} (member : dep ∈ r.deps) :
    t.Evaluated dep.2 := by
  cases body : r.body with
  | placeholder p | synthetic names setup =>
    rw [body] at named
    rw [List.map_eq_nil_iff.1 named] at member
    cases member
  | source script =>
    rw [body] at named
    rw [runModule, body] at ran
    have nodup : (Entries.keys r.deps).Nodup := by
      rw [Entries.keys, named]
      exact nodup_specifiers script
    have imported : dep.1 ∈ script.specifiers := by
      have specifiers : r.deps.map (·.1) = script.specifiers := named
      rw [← specifiers]
      exact List.mem_map_of_mem member
    obtain ⟨i, declared, same⟩ := Script.import_of_mem_specifiers imported
    obtain ⟨offered, found⟩ := Script.exportsOf_of_run ran declared
    rw [same, exportsOf, Entries.get?_of_mem nodup member] at found
    obtain ⟨r', record, evaluated, _⟩ := namespaceOf_eq_ok.1 found
    exact ⟨r', record, evaluated⟩

theorem Sound.modified (h : s.Sound) {f : ModuleRecord → ModuleRecord}
    (found : s.modules[id]? = some r) (before : r.status ≠ .evaluated)
    (after : (f r).status ≠ .evaluated) (named : (f r).Named) : (s.modified id f).Sound := by
  have only := onlyAt_modified s id f
  have own := getElem?_modified found f
  constructor
  · rintro i ⟨q, foundAt, evaluated⟩
    have other : i ≠ id := by
      rintro rfl
      cases own.symm.trans foundAt
      exact after evaluated
    refine (h.closed i ⟨q, (only.other i other).symm.trans foundAt, evaluated⟩).mono ?_
    intro j q' foundAt' evaluated'
    have other' : j ≠ id := by
      rintro rfl
      cases found.symm.trans foundAt'
      exact before evaluated'
    exact (only.other j other').trans foundAt'
  · intro i q foundAt
    by_cases here : i = id
    · subst here
      cases own.symm.trans foundAt
      exact named
    · exact h.named i q ((only.other i here).symm.trans foundAt)

theorem Sound.complete (h : s.Sound) {exports : Fields} (found : s.modules[id]? = some r)
    (before : r.status ≠ .evaluated) (named : r.Named)
    (deps : ∀ dep ∈ r.deps, s.Evaluated dep.2) (linked : r.status ≠ .unlinked) :
    (s.modified id ({ · with exports, status := .evaluated })).Sound := by
  have only := onlyAt_modified s id ({ · with exports, status := .evaluated })
  have own := getElem?_modified found ({ · with exports, status := .evaluated })
  have grounded {i : ModuleId} (evaluated : s.Evaluated i) :
      (s.modified id ({ · with exports, status := .evaluated })).Grounded i := by
    refine (h.closed i evaluated).mono ?_
    intro j q foundAt done
    have other : j ≠ id := by
      rintro rfl
      cases found.symm.trans foundAt
      exact before done
    exact (only.other j other).trans foundAt
  constructor
  · rintro i ⟨q, foundAt, evaluated⟩
    by_cases here : i = id
    · subst here
      exact .intro own rfl fun dep member => grounded (deps dep member)
    · exact grounded ⟨q, (only.other i here).symm.trans foundAt, evaluated⟩
  · intro i q foundAt
    by_cases here : i = id
    · subst here
      cases own.symm.trans foundAt
      exact .inr (named.resolve_left linked)
    · exact h.named i q ((only.other i here).symm.trans foundAt)

theorem sound_sequential : Sequential (Action.Along fun s t => Sound s → Sound t) :=
  .ofRelation (fun _ h => h) (fun h k sound => k (h sound)) fun _ _ h => ⟨fun i evaluated =>
    (h.closed i evaluated).mono fun _ _ found _ => found, h.named⟩

theorem evaluateWithin_sound (depth : Nat) (id : ModuleId) :
    (evaluateWithin depth id).Along fun s t => Sound s → Sound t := by
  induction depth generalizing id with
  | zero => exact fun s sound => sound
  | succ depth ih =>
    intro s sound
    have marked {r : ModuleRecord} (found : s.modules[id]? = some r) (linked : r.status = .linked) :
        r.deps.map (·.1) = r.body.specifiers ∧ (s.modified id fun r =>
          { r with status := .evaluating, body := r.body.begun }).Sound := by
      have names : r.deps.map (·.1) = r.body.specifiers := by
        rcases sound.named id r found with unlinked | named
        · cases linked.symm.trans unlinked
        · exact named
      refine ⟨names, sound.modified found (by rw [linked]; nofun) nofun (.inr ?_)⟩
      rw [ModuleBody.specifiers_begun]
      exact names
    have inner (r : ModuleRecord) : Action.Along (fun s t => Sound s → Sound t)
        (r.deps.forM fun dep => evaluateWithin depth dep.2) :=
      sound_sequential.forM fun dep => ih dep.2
    have wrong {r : ModuleRecord} {t : State} {outcome : Except LoadError Unit} {message : String}
        (found : s.modules[id]? = some r) (linked : r.status = .linked)
        (deps : (r.deps.forM fun dep => evaluateWithin depth dep.2).run
          (s.modified id fun r => { r with status := .evaluating, body := r.body.begun }) =
            (outcome, t)) : (t.modified id ({ · with status := .errored message })).Sound := by
      obtain ⟨names, begun⟩ := marked found linked
      have after := inner r _ begun
      rw [deps] at after
      refine after.modified (kept_of_evaluateDeps found deps) nofun nofun (.inr ?_)
      rw [ModuleBody.specifiers_begun]
      exact names
    cases run : (evaluateWithin (depth + 1) id).run s with
    | mk outcome t =>
      cases evaluateWithin_result run with
      | missing | done | refused | early => exact sound
      | wrongDeps found linked deps => exact wrong found linked deps
      | wrongBody found linked deps => exact wrong found linked deps
      | @evaluated r exports t found linked deps ran =>
        -- A dependency on a cycle is skipped without an error, but the body asks for its exports.
        obtain ⟨names, begun⟩ := marked found linked
        have after := inner r _ begun
        rw [deps] at after
        refine after.complete (kept_of_evaluateDeps found deps) nofun (.inr ?_) ?_ nofun
        · rw [ModuleBody.specifiers_begun]
          exact names
        · exact fun dep member => evaluated_of_runModule names ran member

theorem evaluate_sound (sound : s.Sound) (id : ModuleId) : ((evaluate id).run s).2.Sound := by
  rw [run_evaluate]
  refine evaluateWithin_sound _ id _ ⟨?_, sound.named⟩
  exact fun i evaluated => (sound.closed i evaluated).mono fun _ _ found _ => found

theorem sound_of_inOrder (order : s.InOrder) (closed : ∀ i, s.Evaluated i → s.Grounded i) :
    s.Sound := ⟨closed, fun i r found => (order i r found).named⟩

theorem next_closed (order : s.InOrder) (closed : ∀ i, s.Evaluated i → s.Grounded i)
    (op : Operation) (i : ModuleId) (evaluated : (op.next s).Evaluated i) :
    (op.next s).Grounded i := by
  have ended : ∀ (i : ModuleId) (r : ModuleRecord), s.modules[i]? = some r →
      r.status = .evaluated → (op.next s).modules[i]? = some r := by
    intro i r found evaluated
    exact (next_moves s op).of_ended found (.inl evaluated)
  have others (other : ∀ id, op ≠ .evaluate id) : (op.next s).Grounded i := by
    obtain ⟨r, found, done⟩ := evaluated
    exact (closed i ⟨r, evaluated_of_next op other found done, done⟩).mono ended
  cases op with
  | evaluate id => exact (evaluate_sound (sound_of_inOrder order closed) id).closed i evaluated
  | _ => exact others nofun

theorem after_closed (ops : List Operation) (evaluated : (after {} ops).Evaluated i) :
    (after {} ops).Grounded i := by
  have both : (after {} ops).InOrder ∧
      ∀ i, (after {} ops).Evaluated i → (after {} ops).Grounded i := by
    refine after_induction (I := fun s => s.InOrder ∧ ∀ i, s.Evaluated i → s.Grounded i)
      ⟨inOrder_empty, ?_⟩ ?_ ops
    · rintro i ⟨r, found, _⟩
      cases found
    · rintro s op ⟨order, closed⟩
      exact ⟨(next_moves s op).inOrder order, next_closed order closed op⟩
  exact both.2 i evaluated

theorem DependsOn.of_moves (edge : s.DependsOn i j) (order : s.InOrder)
    (moves : Follows Moves s t) : t.DependsOn i j := by
  obtain ⟨r, found, dep, member, same⟩ := edge
  obtain ⟨r', found', move⟩ := moves.old i r found
  have linked : r.status ≠ .unlinked := (order i r found).deps (List.ne_nil_of_mem member)
  exact ⟨r', found', dep, by rwa [move.becomes.deps linked], same⟩

def Errored (s : State) (id : ModuleId) : Prop :=
  ∃ (r : ModuleRecord) (message : String), s.modules[id]? = some r ∧ r.status = .errored message

/-- Where no pass is at work, an evaluation of a linked module comes to an end, well or not. -/
theorem evaluate_ends (rest : s.AtRest) (found : s.modules[id]? = some r)
    (linked : r.status ≠ .unlinked) {outcome : Except LoadError Unit}
    (run : (evaluate id).run s = (outcome, t)) :
    (outcome = .ok () ∧ t.Evaluated id) ∨ ∃ e, outcome = .error e ∧ t.Errored id := by
  rw [run_evaluate] at run
  cases evaluateWithin_result run with
  | missing missing => cases missing.symm.trans found
  | done found' status =>
    rcases status with evaluated | evaluating
    · exact .inl ⟨rfl, _, found', evaluated⟩
    · exact absurd evaluating (rest _ _ found').2
  | refused found' errored => exact .inr ⟨_, rfl, _, _, found', errored⟩
  | early found' status =>
    cases found.symm.trans found'
    rcases status with unlinked | linking
    · exact absurd unlinked linked
    · exact absurd linking (rest _ _ found').1
  | evaluated found' _ deps =>
    exact .inl ⟨rfl, _, getElem?_modified (kept_of_evaluateDeps found' deps) _, rfl⟩
  | wrongDeps found' _ deps | wrongBody found' _ deps =>
    exact .inr ⟨_, rfl, _, _, getElem?_modified (kept_of_evaluateDeps found' deps) _, rfl⟩

/-- After every sequence of operations, evaluated modules depend on evaluated modules only, without
cycles. A module on a cycle of dependencies is never evaluated: an evaluation fails and leaves it in
error. -/
theorem evaluated_acyclic (ops : List Operation) :
    (∀ i j, (after {} ops).Evaluated i → (after {} ops).DependsOn i j →
        (after {} ops).Evaluated j) ∧
      (∀ i, ¬TransGen (fun i j => (after {} ops).Evaluated i ∧ (after {} ops).Evaluated j ∧
        (after {} ops).DependsOn i j) i i) ∧
      ∀ i, TransGen (after {} ops).DependsOn i i →
        (∀ later, ¬(after {} (ops ++ later)).Evaluated i) ∧
        ∃ e t, (evaluate i).run (after {} ops) = (.error e, t) ∧ t.Errored i := by
  have order := after_inOrder ops
  have never {i : ModuleId} (cycle : TransGen (after {} ops).DependsOn i i)
      (later : List Operation) : ¬(after {} (ops ++ later)).Evaluated i := by
    intro evaluated
    refine (after_closed (ops ++ later) evaluated).acyclic (cycle.lift (fun i => i) ?_)
    intro a b edge
    rw [after_append]
    exact edge.of_moves order (after_moves (after {} ops) later)
  refine ⟨?_, ?_, fun i cycle => ⟨never cycle, ?_⟩⟩
  · intro i j evaluated edge
    exact ((after_closed ops evaluated).of_dependsOn edge).evaluated
  · intro i cycle
    obtain ⟨_, ⟨evaluated, _⟩, _⟩ := TransGen.head'_iff.1 cycle
    exact (after_closed ops evaluated).acyclic
      (cycle.lift (fun i => i) fun _ _ edge => edge.2.2)
  · obtain ⟨_, ⟨r, found, dep, member, _⟩, _⟩ := TransGen.head'_iff.1 cycle
    have linked : r.status ≠ .unlinked := (order i r found).deps (List.ne_nil_of_mem member)
    have rest : (after {} ops).AtRest := fun i r found => (order i r found).rests
    cases run : (evaluate i).run (after {} ops) with
    | mk outcome t =>
      rcases evaluate_ends rest found linked run with ⟨_, evaluated⟩ | ⟨e, rfl, errored⟩
      · refine absurd ?_ (never cycle [.evaluate i])
        rw [after_append]
        show ((evaluate i).run (after {} ops)).2.Evaluated i
        rw [run]
        exact evaluated
      · exact ⟨e, t, rfl, errored⟩

/-- In a ring of two modules none can be evaluated; linked to a third one, the first can be. -/
theorem evaluated_acyclic_pair :
    let made := pair (.ofVersion "14.0.0" 0)
    let ring := made ++ [.link (.ofTable [("a", 0), ("b", 1), ("x", 1)]) 0]
    let tree := made ++ [.synthetic [] { exports := [] } none,
      .link (.ofTable [("b", 2), ("x", 2)]) 0, .evaluate 0]
    TransGen (after {} ring).DependsOn 0 0 ∧
      (∃ e t, (evaluate 0).run (after {} ring) = (.error e, t) ∧ t.Errored 0) ∧
      (after {} tree).Evaluated 0 ∧ (after {} tree).DependsOn 0 2 ∧
        (after {} tree).Evaluated 2 := by
  intro made ring tree
  have linked : (after {} ring).modules =
      [{ body := .source pairFirst, context := none, status := .linked,
          deps := [("b", 1), ("x", 1)] },
        { body := .source pairSecond, context := none, status := .linked,
          deps := [("a", 0)] }] := by
    rw [after_append, after_pair]
    rfl
  have evaluated : (after {} tree).modules[0]? =
      some
        { body := .source pairFirst, context := none, status := .evaluated,
          deps := [("b", 2), ("x", 2)] } := by
    rw [after_append, after_pair]
    rfl
  have first : (after {} ring).DependsOn 0 1 :=
    ⟨_, by rw [linked]; rfl, ("b", 1), List.mem_cons_self, rfl⟩
  have second : (after {} ring).DependsOn 1 0 :=
    ⟨_, by rw [linked]; rfl, ("a", 0), List.mem_cons_self, rfl⟩
  have cycle : TransGen (after {} ring).DependsOn 0 0 := .tail (.single first) second
  have root : (after {} tree).Evaluated 0 := ⟨_, evaluated, rfl⟩
  have edge : (after {} tree).DependsOn 0 2 := ⟨_, evaluated, ("b", 2), List.mem_cons_self, rfl⟩
  obtain ⟨_, _, never⟩ := evaluated_acyclic ring
  obtain ⟨closed, _, _⟩ := evaluated_acyclic tree
  exact ⟨cycle, (never 0 cycle).2, root, edge, closed 0 2 root edge⟩

end State

end CodeCache
