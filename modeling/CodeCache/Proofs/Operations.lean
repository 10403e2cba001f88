import CodeCache.Proofs.Lifecycle
import CodeCache.Proofs.Opening

/-! # Sequences of operations

The engine is used by one operation after the other. A link pass is given what answers imports,
which may look at the engine and answers with modules or with errors. Through any such sequence the
status of a module only goes on, what is settled by a status stays, and a body is run at most once.
-/

namespace CodeCache

open Relation (ReflTransGen)
open ModuleRecord (LinkMove EvalMove Moves)

/-- An answer to an import of a module, which may depend on all that happened so far. -/
abbrev Answers := State → String → ModuleId → Except LoadError ModuleId

def Answers.resolver (answers : Answers) : State.Resolver := fun specifier referrer => do
  match answers (← get) specifier referrer with
  | .ok id => return id
  | .error e => throw e

def Answers.ofTable (table : Entries ModuleId) : Answers := fun _ specifier _ =>
  match Entries.get? table specifier with
  | some id => .ok id
  | none => .error (.resolution specifier "not in map")

inductive Operation where
  | compile (b : Build) (text : String)
  | source (b : Build) (text : Source) (cached : Option Bytes) (context : Option String)
  | synthetic (names : List String) (setup : Setup) (context : Option String)
  | link (answers : Answers) (id : ModuleId)
  | evaluate (id : ModuleId)
  | namespaceOf (id : ModuleId)
  | setGlobal (context name : String) (value : Value)

namespace Operation

/-- The state after an operation, which may have failed. -/
def next (s : State) : Operation → State
  | compile b text => ((State.compile b text).run s).2
  | source b text cached context => ((State.sourceModule b text cached context).run s).2
  | synthetic names setup context => ((State.syntheticModule names setup context).run s).2
  | link answers id => ((State.link answers.resolver id).run s).2
  | evaluate id => ((State.evaluate id).run s).2
  | namespaceOf id => ((State.namespaceOf id).run s).2
  | setGlobal context name value => s.setGlobal context name value

def Move : Operation → ModuleRecord → ModuleRecord → Prop
  | link .. => LinkMove
  | evaluate _ => EvalMove
  | _ => Eq

end Operation

namespace State

def after (s : State) (ops : List Operation) : State := ops.foldl Operation.next s

theorem after_append (s : State) (ops later : List Operation) :
    s.after (ops ++ later) = (s.after ops).after later := List.foldl_append

theorem after_induction {I : State → Prop} {s : State} (start : I s)
    (step : ∀ s op, I s → I (Operation.next s op)) (ops : List Operation) : I (s.after ops) := by
  induction ops generalizing s with
  | nil => exact start
  | cons op ops ih => exact ih (step s op start)

theorem run_resolver (answers : Answers) (specifier : String) (referrer : ModuleId) (s : State) :
    (answers.resolver specifier referrer).run s = (answers s specifier referrer, s) := by
  rw [Answers.resolver, Action.run_bind_ok (Action.run_get s)]
  cases answers s specifier referrer <;> rfl

theorem resolver_follows {R : ModuleRecord → ModuleRecord → Prop} (course : ModuleRecord.Course R)
    (answers : Answers) (specifier : String) (referrer : ModuleId) :
    (answers.resolver specifier referrer).Along (Follows R) := by
  intro s
  rw [run_resolver]
  exact .refl course s

theorem next_follows (s : State) (op : Operation) : Follows op.Move s (op.next s) := by
  have course := ModuleRecord.eq_course
  cases op with
  | compile b text => exact compile_follows course b text s
  | source b text cached context => exact sourceModule_follows course b text cached context s
  | synthetic names setup context => exact syntheticModule_follows course names setup context s
  | link answers id =>
    have course := ModuleRecord.linkMove_course
    exact link_follows course (fun _ _ h => h) (resolver_follows course answers) id s
  | evaluate id => exact evaluate_follows ModuleRecord.evalMove_course (fun _ _ h => h) id s
  | namespaceOf id => exact namespaceOf_follows course id s
  | setGlobal context name value => exact .of_modules course rfl

theorem next_moves (s : State) (op : Operation) : Follows Moves s (op.next s) := by
  refine (next_follows s op).mono fun r r' move => ?_
  cases op with
  | link => exact .single (.inl move)
  | evaluate => exact .single (.inr move)
  | _ =>
    cases move
    exact .refl

theorem after_moves (s : State) (ops : List Operation) : Follows Moves s (s.after ops) :=
  after_induction (I := Follows Moves s) (.refl ModuleRecord.moves_course s)
    (fun t op h => h.trans ModuleRecord.moves_course (next_moves t op)) ops

end State

inductive Status.Next : Status → Status → Prop where
  | link : Next .unlinked .linked
  | evaluate : Next .linked .evaluated
  | fail (message : String) : Next .linked (.errored message)

/-- The module has been evaluated, well or not. -/
def Status.Ended (status : Status) : Prop := status = .evaluated ∨ ∃ m, status = .errored m

theorem Status.Ended.ne_linked {status : Status} (ended : status.Ended) : status ≠ .linked := by
  rcases ended with rfl | ⟨_, rfl⟩ <;> simp

theorem Status.Ended.ne_unlinked {status : Status} (ended : status.Ended) :
    status ≠ .unlinked := by
  rcases ended with rfl | ⟨_, rfl⟩ <;> simp

namespace ModuleRecord

structure InOrder (r : ModuleRecord) : Prop where
  rests : r.status.Rests
  deps : r.deps ≠ [] → r.status ≠ .unlinked
  named : r.status = .unlinked ∨ r.deps.map (·.1) = r.body.specifiers
  exports : r.exports ≠ [] → r.status = .evaluated
  ready : r.status = .unlinked ∨ r.status = .linked → r.body.Ready

/-- What can become of a record: its status goes on, its body is the same up to a begun setup, and
what its status settles is settled. -/
structure Becomes (r r' : ModuleRecord) : Prop where
  status : ReflTransGen Status.Next r.status r'.status
  body : r'.body = r.body ∨ r'.body = r.body.begun
  context : r'.context = r.context
  rejection : r'.rejection = r.rejection
  deps : r.status ≠ .unlinked → r'.deps = r.deps
  exports : r.status = .evaluated → r'.exports = r.exports

variable {r r' r'' : ModuleRecord}

theorem Fresh.inOrder (h : r.Fresh) : r.InOrder := by
  constructor
  · exact h.rests
  · exact fun some => absurd h.deps some
  · exact .inl h.status
  · exact fun some => absurd h.exports some
  · exact fun _ => h.ready

theorem LinkMove.inOrder (h : r.LinkMove r') (order : r.InOrder) : r'.InOrder := by
  cases h with
  | same => exact order
  | linked status named =>
    constructor
    · exact ⟨nofun, nofun⟩
    · exact fun _ => nofun
    · exact .inr named
    · intro some
      cases status.symm.trans (order.exports some)
    · exact fun _ => order.ready (.inl status)

theorem EvalMove.inOrder (h : r.EvalMove r') (order : r.InOrder) : r'.InOrder := by
  have named (linked : r.status = .linked) : r.deps.map (·.1) = r.body.begun.specifiers := by
    rw [ModuleBody.specifiers_begun]
    rcases order.named with unlinked | named
    · cases unlinked.symm.trans linked
    · exact named
  cases h with
  | same => exact order
  | evaluated status =>
    constructor
    · exact ⟨nofun, nofun⟩
    · exact fun _ => nofun
    · exact .inr (named status)
    · exact fun _ => rfl
    · exact fun early => by cases early <;> contradiction
  | errored status =>
    constructor
    · exact ⟨nofun, nofun⟩
    · exact fun _ => nofun
    · exact .inr (named status)
    · intro some
      cases status.symm.trans (order.exports some)
    · exact fun early => by cases early <;> contradiction

theorem Moves.inOrder (h : r.Moves r') (order : r.InOrder) : r'.InOrder := by
  induction h with
  | refl => exact order
  | tail _ last ih =>
    rcases last with link | evaluation
    · exact link.inOrder ih
    · exact evaluation.inOrder ih

theorem Becomes.refl (r : ModuleRecord) : r.Becomes r :=
  ⟨.refl, .inl rfl, rfl, rfl, fun _ => rfl, fun _ => rfl⟩

theorem Becomes.trans (h : r.Becomes r') (k : r'.Becomes r'') : r.Becomes r'' := by
  -- A status that is not the first or is the last stays so.
  have linked {a b : Status} (steps : ReflTransGen Status.Next a b) (ha : a ≠ .unlinked) :
      b ≠ .unlinked := by
    induction steps with
    | refl => exact ha
    | tail _ last _ => cases last <;> exact nofun
  have evaluated {a b : Status} (steps : ReflTransGen Status.Next a b) (ha : a = .evaluated) :
      b = .evaluated := by
    induction steps with
    | refl => exact ha
    | tail _ last ih => cases ih ▸ last
  constructor
  · exact h.status.trans k.status
  · rcases h.body with body | body
    · rw [← body]
      exact k.body
    · have kept := k.body
      rw [body, State.begun_begun, or_self] at kept
      exact .inr kept
  · exact k.context.trans h.context
  · exact k.rejection.trans h.rejection
  · exact fun ha => (k.deps (linked h.status ha)).trans (h.deps ha)
  · exact fun ha => (k.exports (evaluated h.status ha)).trans (h.exports ha)

theorem LinkMove.becomes (h : r.LinkMove r') : r.Becomes r' := by
  cases h with
  | same => exact .refl r
  | linked status =>
    constructor
    · rw [status]
      exact .single .link
    · exact .inl rfl
    · rfl
    · rfl
    · exact fun ha => absurd status ha
    · exact fun _ => rfl

theorem EvalMove.becomes (h : r.EvalMove r') : r.Becomes r' := by
  cases h with
  | same => exact .refl r
  | evaluated status =>
    constructor
    · rw [status]
      exact .single .evaluate
    · exact .inr rfl
    · rfl
    · rfl
    · exact fun _ => rfl
    · intro ha
      cases status.symm.trans ha
  | errored status =>
    constructor
    · rw [status]
      exact .single (.fail _)
    · exact .inr rfl
    · rfl
    · rfl
    · exact fun _ => rfl
    · exact fun _ => rfl

theorem Moves.becomes (h : r.Moves r') : r.Becomes r' := by
  induction h with
  | refl => exact .refl r
  | tail _ last ih =>
    rcases last with link | evaluation
    · exact ih.trans link.becomes
    · exact ih.trans evaluation.becomes

theorem Moves.of_ended (h : r.Moves r') (ended : r.status.Ended) : r' = r := by
  induction h with
  | refl => rfl
  | tail _ last ih =>
    subst ih
    rcases last with link | evaluation
    · cases link with
      | same => rfl
      | linked status => exact absurd status ended.ne_unlinked
    · cases evaluation with
      | same => rfl
      | evaluated status | errored status => exact absurd status ended.ne_linked

end ModuleRecord

namespace State

variable {s t u : State} {id : ModuleId}

def InOrder (s : State) : Prop :=
  ∀ (i : ModuleId) (r : ModuleRecord), s.modules[i]? = some r → r.InOrder

theorem Follows.inOrder (h : Follows Moves s t) (order : s.InOrder) : t.InOrder :=
  h.invariant (fun _ => ModuleRecord.Fresh.inOrder) (fun _ _ => ModuleRecord.Moves.inOrder) order

theorem inOrder_empty : InOrder {} := by
  intro i r found
  cases found

theorem after_inOrder (ops : List Operation) : (after {} ops).InOrder :=
  (after_moves {} ops).inOrder inOrder_empty

end State

structure Start where
  id : ModuleId
  body : ModuleBody

namespace State

variable {s t u : State} {id : ModuleId}

/-- The bodies run while modules are evaluated one after the other, up to the first that fails. -/
def startsEach (starts : ModuleId → State → List Start) (evaluate : ModuleId → Action Unit) :
    List (String × ModuleId) → State → List Start
  | [], _ => []
  | dep :: deps, s =>
    match (evaluate dep.2).run s with
    | (.ok _, t) => starts dep.2 s ++ startsEach starts evaluate deps t
    | (.error _, _) => starts dep.2 s

/-- The bodies that `evaluateWithin` runs, in order. The body of a module is run after its
dependencies have been evaluated without an error. -/
def startsWithin : (depth : Nat) → ModuleId → State → List Start
  | 0, _, _ => []
  | depth + 1, id, s =>
    match s.modules[id]? with
    | none => []
    | some r =>
      if r.status = .linked then
        let begun := s.modified id fun r => { r with status := .evaluating, body := r.body.begun }
        let before := startsEach (startsWithin depth) (evaluateWithin depth) r.deps begun
        match (r.deps.forM fun dep => evaluateWithin depth dep.2).run begun with
        | (.ok _, _) => before ++ [{ id, body := r.body }]
        | (.error _, _) => before
      else []

def startsOf (s : State) : Operation → List Start
  | .evaluate id =>
    startsWithin (s.modules.length + 1) id { s with events := s.events ++ [.evaluate id] }
  | _ => []

def starts (s : State) : List Operation → List Start
  | [] => []
  | op :: ops => s.startsOf op ++ starts (op.next s) ops

structure Started (log : List Start) (s t : State) : Prop where
  once : (log.map (·.id)).Nodup
  before : ∀ start ∈ log, ∃ r : ModuleRecord, s.modules[start.id]? = some r ∧
    r.status = .linked ∧ r.body = start.body
  ended : ∀ start ∈ log, ∃ r : ModuleRecord, t.modules[start.id]? = some r ∧ r.status.Ended
  all : ∀ (i : ModuleId) (r : ModuleRecord), t.modules[i]? = some r → r.status = .evaluated →
    s.modules[i]? = some r ∨ i ∈ log.map (·.id)

theorem Follows.of_ended (h : Follows Moves s t) {r : ModuleRecord}
    (found : s.modules[id]? = some r) (ended : r.status.Ended) : t.modules[id]? = some r := by
  obtain ⟨r', found', moves⟩ := h.old id r found
  rw [found', moves.of_ended ended]

theorem Follows.of_linked (h : Follows EvalMove s t) {r : ModuleRecord}
    (found : t.modules[id]? = some r) (linked : r.status = .linked) :
    s.modules[id]? = some r := by
  refine h.unmoved found (by simp [linked]) ?_
  intro q move
  cases move with
  | same => rfl
  | evaluated | errored => cases linked

theorem Started.nothing (s : State) : Started [] s s := by
  constructor
  · exact .nil
  · nofun
  · nofun
  · exact fun i r found _ => .inl found

/-- A module whose body has been run is not run again. -/
theorem disjoint_starts {log log' : List Start}
    (ended : ∀ start ∈ log, ∃ r : ModuleRecord, s.modules[start.id]? = some r ∧ r.status.Ended)
    (linked : ∀ start ∈ log', ∃ r : ModuleRecord, s.modules[start.id]? = some r ∧
      r.status = .linked ∧ r.body = start.body) :
    (log.map (·.id)).Disjoint (log'.map (·.id)) := by
  intro i member member'
  obtain ⟨start, here, rfl⟩ := List.mem_map.1 member
  obtain ⟨start', here', same⟩ := List.mem_map.1 member'
  obtain ⟨r, found, done⟩ := ended start here
  obtain ⟨r', found', waiting, _⟩ := linked start' here'
  rw [same] at found'
  cases found.symm.trans found'
  exact done.ne_linked waiting

theorem Started.append {log log' : List Start} (h : Started log s t) (k : Started log' t u)
    (first : Follows EvalMove s t) (second : Follows EvalMove t u) :
    Started (log ++ log') s u := by
  constructor
  · rw [List.map_append]
    exact h.once.append k.once (disjoint_starts h.ended k.before)
  · intro start member
    rcases List.mem_append.1 member with here | here
    · exact h.before start here
    · obtain ⟨r, found, linked, body⟩ := k.before start here
      exact ⟨r, first.of_linked found linked, linked, body⟩
  · intro start member
    rcases List.mem_append.1 member with here | here
    · obtain ⟨r, found, ended⟩ := h.ended start here
      exact ⟨r, (second.mono fun _ _ move => .single (.inr move)).of_ended found ended, ended⟩
    · exact k.ended start here
  · intro i r found evaluated
    rw [List.map_append, List.mem_append]
    rcases k.all i r found evaluated with between | member
    · rcases h.all i r between evaluated with before | member
      · exact .inl before
      · exact .inr (.inl member)
    · exact .inr (.inr member)

/-- A module is evaluated around its dependencies; its own body is run last if it is run. -/
theorem Started.around {log own : List Start} {r r' : ModuleRecord}
    {f g : ModuleRecord → ModuleRecord} (found : s.modules[id]? = some r)
    (linked : r.status = .linked) (busy : (f r).status = .evaluating)
    (inner : Started log (s.modified id f) t) (kept : t.modules[id]? = some r')
    (ended : (g r').status.Ended)
    (last : own = [{ id, body := r.body }] ∨ own = [] ∧ (g r').status ≠ .evaluated) :
    Started (log ++ own) s (t.modified id g) := by
  have before := onlyAt_modified s id f
  have after := onlyAt_modified t id g
  have others {start : Start} (member : start ∈ log) : start.id ≠ id := by
    rintro rfl
    obtain ⟨q, foundAt, status, _⟩ := inner.before start member
    cases (getElem?_modified found f).symm.trans foundAt
    cases busy.symm.trans status
  have mine {start : Start} (member : start ∈ own) : start = { id, body := r.body } := by
    rcases last with rfl | ⟨rfl, _⟩
    · exact List.mem_singleton.1 member
    · cases member
  constructor
  · rcases last with rfl | ⟨rfl, _⟩
    · rw [List.map_append]
      refine inner.once.append (List.nodup_singleton _) ?_
      intro i member own
      obtain ⟨start, here, rfl⟩ := List.mem_map.1 member
      exact others here (List.mem_singleton.1 own)
    · rw [List.append_nil]
      exact inner.once
  · intro start member
    rcases List.mem_append.1 member with here | here
    · obtain ⟨q, foundAt, status, body⟩ := inner.before start here
      exact ⟨q, (before.other _ (others here)).symm.trans foundAt, status, body⟩
    · cases mine here
      exact ⟨r, found, linked, rfl⟩
  · intro start member
    rcases List.mem_append.1 member with here | here
    · obtain ⟨q, foundAt, done⟩ := inner.ended start here
      exact ⟨q, (after.other _ (others here)).trans foundAt, done⟩
    · cases mine here
      exact ⟨g r', getElem?_modified kept g, ended⟩
  · intro i q foundAt evaluated
    rw [List.map_append, List.mem_append]
    by_cases here : i = id
    · subst here
      cases (getElem?_modified kept g).symm.trans foundAt
      rcases last with rfl | ⟨_, wrong⟩
      · exact .inr (.inr List.mem_cons_self)
      · exact absurd evaluated wrong
    · rw [after.other i here] at foundAt
      rcases inner.all i q foundAt evaluated with old | member
      · exact .inl ((before.other i here).symm.trans old)
      · exact .inr (.inl member)

theorem startsEach_started {starts : ModuleId → State → List Start}
    {evaluate : ModuleId → Action Unit} (follows : ∀ id, (evaluate id).Along (Follows EvalMove))
    (one : ∀ id s, Started (starts id s) s ((evaluate id).run s).2)
    (deps : List (String × ModuleId)) (s : State) :
    Started (startsEach starts evaluate deps s) s
      ((deps.forM fun dep => evaluate dep.2).run s).2 := by
  induction deps generalizing s with
  | nil => exact .nothing s
  | cons dep deps ih =>
    have first := one dep.2 s
    have move := follows dep.2 s
    show Started _ s ((evaluate dep.2 >>= fun _ => deps.forM fun dep => evaluate dep.2).run s).2
    rw [startsEach, Action.run_bind]
    revert first move
    rcases (evaluate dep.2).run s with ⟨e | _, t⟩
    · exact fun first _ => first
    · intro first move
      have others : Action.Along (Follows EvalMove) (deps.forM fun dep => evaluate dep.2) :=
        (follows_sequential ModuleRecord.evalMove_course).forM fun dep => follows dep.2
      exact first.append (ih t) move (others t)

theorem startsWithin_started (depth : Nat) (id : ModuleId) (s : State) :
    Started (startsWithin depth id s) s ((evaluateWithin depth id).run s).2 := by
  have course := ModuleRecord.evalMove_course
  induction depth generalizing id s with
  | zero => exact .nothing s
  | succ depth ih =>
    have follows (id : ModuleId) : (evaluateWithin depth id).Along (Follows EvalMove) :=
      evaluateWithin_follows course (fun _ _ h => h) depth id
    have before (r : ModuleRecord) := startsEach_started follows ih r.deps
      (s.modified id fun r => { r with status := .evaluating, body := r.body.begun })
    cases run : (evaluateWithin (depth + 1) id).run s with
    | mk outcome u =>
      cases evaluateWithin_result run with
      | missing missing =>
        simp only [startsWithin, missing]
        exact .nothing s
      | done found status =>
        rw [startsWithin, found]
        rcases status with status | status <;> simp only [status] <;> exact .nothing s
      | refused found status =>
        simp only [startsWithin, found, status]
        exact .nothing s
      | early found status =>
        rw [startsWithin, found]
        rcases status with status | status <;> simp only [status] <;> exact .nothing s
      | @evaluated r exports t found status deps ran =>
        have inner := before r
        rw [deps] at inner
        simp only [startsWithin, found, status, deps]
        exact inner.around found status rfl (kept_of_evaluateDeps found deps)
          (.inl rfl) (.inl rfl)
      | @wrongDeps r e t found status deps =>
        have inner := before r
        rw [deps] at inner
        simp only [startsWithin, found, status, deps]
        have started : Started (_ ++ []) s
            (t.modified id ({ · with status := .errored e.message })) :=
          inner.around found status rfl (kept_of_evaluateDeps found deps)
          (.inr ⟨_, rfl⟩) (.inr ⟨rfl, nofun⟩)
        rwa [List.append_nil] at started
      | @wrongBody r e t found status deps ran =>
        have inner := before r
        rw [deps] at inner
        simp only [startsWithin, found, status, deps]
        exact inner.around found status rfl (kept_of_evaluateDeps found deps)
          (.inr ⟨_, rfl⟩) (.inl rfl)

theorem Follows.of_unmoved (h : Follows LinkMove s t) {r : ModuleRecord}
    (found : t.modules[id]? = some r) (made : r.status ≠ .unlinked) (moved : r.status ≠ .linked) :
    s.modules[id]? = some r := by
  refine h.unmoved found made ?_
  intro q move
  cases move with
  | same => rfl
  | linked => exact absurd rfl moved

theorem evaluated_of_next (op : Operation) (other : ∀ id, op ≠ .evaluate id) {r : ModuleRecord}
    (found : (op.next s).modules[id]? = some r) (evaluated : r.status = .evaluated) :
    s.modules[id]? = some r := by
  have links : Follows LinkMove s (op.next s) := by
    refine (next_follows s op).mono fun r r' move => ?_
    cases op with
    | link => exact move
    | evaluate id => exact absurd rfl (other id)
    | _ =>
      cases move
      exact .same
  exact links.of_unmoved found (by rw [evaluated]; nofun) (by rw [evaluated]; nofun)

theorem next_started (s : State) (op : Operation) : Started (s.startsOf op) s (op.next s) := by
  have quiet (other : ∀ id, op ≠ .evaluate id) : Started [] s (op.next s) := by
    refine ⟨.nil, nofun, nofun, ?_⟩
    intro i r found evaluated
    exact .inl (evaluated_of_next op other found evaluated)
  cases op with
  | evaluate id =>
    obtain ⟨once, before, ended, all⟩ := startsWithin_started (s.modules.length + 1) id
      { s with events := s.events ++ [.evaluate id] }
    exact ⟨once, before, ended, all⟩
  | _ => exact quiet nofun

structure Accounted (log : List Start) (s : State) : Prop where
  once : (log.map (·.id)).Nodup
  ready : ∀ start ∈ log, start.body.Ready
  ended : ∀ start ∈ log, ∃ r : ModuleRecord, s.modules[start.id]? = some r ∧ r.status.Ended
  all : ∀ (i : ModuleId) (r : ModuleRecord), s.modules[i]? = some r → r.status = .evaluated →
    i ∈ log.map (·.id)

theorem Accounted.append {log log' : List Start} (h : Accounted log s) (order : s.InOrder)
    (moves : Follows Moves s t) (k : Started log' s t) : Accounted (log ++ log') t := by
  constructor
  · rw [List.map_append]
    exact h.once.append k.once (disjoint_starts h.ended k.before)
  · intro start member
    rcases List.mem_append.1 member with here | here
    · exact h.ready start here
    · obtain ⟨r, found, linked, body⟩ := k.before start here
      rw [← body]
      exact (order start.id r found).ready (.inr linked)
  · intro start member
    rcases List.mem_append.1 member with here | here
    · obtain ⟨r, found, ended⟩ := h.ended start here
      exact ⟨r, moves.of_ended found ended, ended⟩
    · exact k.ended start here
  · intro i r found evaluated
    rw [List.map_append, List.mem_append]
    rcases k.all i r found evaluated with before | member
    · exact .inl (h.all i r before evaluated)
    · exact .inr member

theorem Accounted.after {log : List Start} (h : Accounted log s) (order : s.InOrder)
    (ops : List Operation) : Accounted (log ++ s.starts ops) (s.after ops) := by
  -- A body is run in passing from linked to the end, and no status comes back to linked.
  induction ops generalizing s log with
  | nil => simpa [starts, State.after] using h
  | cons op ops ih =>
    have moves := next_moves s op
    have next := h.append order moves (next_started s op)
    rw [starts, ← List.append_assoc]
    exact ih next (moves.inOrder order)

/-- Through every sequence of operations the records stay in order and the status of a module only
goes on. Each body is run at most once, with its setup if it is synthetic; the modules whose bodies
were run have come to an end, and every evaluated module is one of them. -/
theorem status_machine (ops : List Operation) :
    (∀ (i : ModuleId) (r : ModuleRecord), (after {} ops).modules[i]? = some r → r.InOrder) ∧
      (∀ (later : List Operation) (i : ModuleId) (r : ModuleRecord),
        (after {} ops).modules[i]? = some r →
          ∃ r' : ModuleRecord, (after {} (ops ++ later)).modules[i]? = some r' ∧ r.Becomes r') ∧
      Accounted (starts {} ops) (after {} ops) := by
  refine ⟨after_inOrder ops, ?_, ?_⟩
  · intro later i r found
    rw [after_append]
    obtain ⟨r', found', moves⟩ := (after_moves (after {} ops) later).old i r found
    exact ⟨r', found', moves.becomes⟩
  · have none : Accounted [] {} := ⟨.nil, nofun, nofun, nofun⟩
    exact none.after inOrder_empty ops

/-- A synthetic module comes to its end, and its setup is run. -/
theorem status_machine_synthetic :
    let made : List Operation := [.synthetic ["x"] { exports := [("x", .bool true)] } none]
    let later : List Operation := [.link (.ofTable []) 0, .evaluate 0]
    ∃ r r' : ModuleRecord, (after {} made).modules[0]? = some r ∧ r.status = .unlinked ∧
      (after {} (made ++ later)).modules[0]? = some r' ∧ r'.status = .evaluated ∧ r'.InOrder ∧
      r.Becomes r' ∧ 0 ∈ (starts {} (made ++ later)).map (·.id) := by
  intro made later
  obtain ⟨_, becomes, _⟩ := status_machine made
  obtain ⟨inOrder, _, accounted⟩ := status_machine (made ++ later)
  obtain ⟨r', found, became⟩ := becomes later 0 _ rfl
  cases found
  exact ⟨_, _, rfl, rfl, rfl, rfl, inOrder 0 _ rfl, became, accounted.all 0 _ rfl rfl⟩

theorem next_source {b : Build} {text : String} {script : Script}
    (parsed : Script.parse text = .ok script) (context : Option String) (s : State) :
    Operation.next s (.source b (.text text) none context) =
      { s with
        modules := s.modules ++ [{ body := .source script, context }]
        events := s.events ++ [.source (Text.units16 text) none context s.modules.length] } := by
  have made : instantiate b (.text text) none = .ok (.source script, none) := by
    simp only [instantiate, Option.map_none, Source.compile, parsed]
    rfl
  show ((sourceModule b (.text text) none context).run s).2 = _
  rw [run_sourceModule made]
  rfl

def pair (b : Build) : List Operation :=
  [.source b (.text "import \"b\"; import \"x\";") none none,
    .source b (.text "import \"a\";") none none]

def pairFirst : Script :=
  { imports := [{ specifier := "b", bindings := [] }, { specifier := "x", bindings := [] }] }

def pairSecond : Script := { imports := [{ specifier := "a", bindings := [] }] }

theorem parse_pairFirst : Script.parse "import \"b\"; import \"x\";" = .ok pairFirst := by cbv

theorem parse_pairSecond : Script.parse "import \"a\";" = .ok pairSecond := by cbv

theorem after_pair (b : Build) :
    after {} (pair b) =
      { modules := [{ body := .source pairFirst, context := none },
          { body := .source pairSecond, context := none }]
        events := [.source 23 none none 0, .source 11 none none 1] } := by
  rw [pair, after, List.foldl_cons, List.foldl_cons, next_source parse_pairFirst,
    next_source parse_pairSecond]
  rfl

end State

end CodeCache
