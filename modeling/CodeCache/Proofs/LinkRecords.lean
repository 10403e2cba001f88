import CodeCache.Proofs.PackageModules

/-! # What links record

A module is entered into the records as linked only when each of its specifiers has led to a module
that exists. Evaluations read these links and never write them, and no module goes away. So in
every state that an operation goes through, also in the middle of a pass, a body finds a module
behind each of its imports. -/

namespace CodeCache

open ModuleRecord (LinkMove EvalMove Moves)

/-- The module has been linked, whatever has become of it since. -/
def Status.WasLinked (status : Status) : Prop := status ≠ .unlinked ∧ status ≠ .linking

/-- In a table of the given size: the links of a module are there once it has been linked, and lead
into the table. -/
structure ModuleRecord.Covers (size : Nat) (r : ModuleRecord) : Prop where
  named : r.status.WasLinked → r.deps.map (·.1) = r.body.specifiers
  bound : ∀ dep ∈ r.deps, dep.2 < size

namespace ModuleRecord

variable {r r' : ModuleRecord} {size : Nat}

theorem Covers.mono {larger : Nat} (h : r.Covers size) (le : size ≤ larger) : r.Covers larger :=
  ⟨h.named, fun dep member => Nat.lt_of_lt_of_le (h.bound dep member) le⟩

theorem Fresh.covers (h : r.Fresh) (size : Nat) : r.Covers size := by
  constructor
  · exact fun linked => absurd h.status linked.1
  · rw [h.deps]
    nofun

/-- The mark of an evaluation and its end leave the links alone. -/
theorem Covers.begun (h : r.Covers size) (linked : r.status = .linked) (status : Status)
    (exports : Fields) : Covers size { r with body := r.body.begun, exports, status } := by
  refine ⟨fun _ => ?_, h.bound⟩
  rw [ModuleBody.specifiers_begun]
  exact h.named (by rw [linked]; exact ⟨nofun, nofun⟩)

theorem EvalMove.covers (move : EvalMove r r') (h : r.Covers size) : r'.Covers size := by
  cases move with
  | same => exact h
  | evaluated linked => exact h.begun linked .evaluated _
  | errored linked => exact h.begun linked (.errored _) _

end ModuleRecord

namespace State

variable {s t u : State} {id : ModuleId} {r : ModuleRecord} {depth : Nat} {seen : Seen}

def Covered (s : State) : Prop :=
  ∀ (i : ModuleId) (r : ModuleRecord), s.modules[i]? = some r → r.Covers s.modules.length

theorem covered_empty : Covered {} := by
  intro i r found
  cases found

theorem Covered.of_modules (h : s.Covered) (same : t.modules = s.modules) : t.Covered := by
  intro i r found
  rw [same] at found ⊢
  exact h i r found

theorem Covered.modified (h : s.Covered) {f : ModuleRecord → ModuleRecord}
    (found : s.modules[id]? = some r) (covers : (f r).Covers s.modules.length) :
    (s.modified id f).Covered := by
  have only := onlyAt_modified s id f
  intro i q foundAt
  rw [only.size]
  by_cases here : i = id
  · subst here
    cases (getElem?_modified found f).symm.trans foundAt
    exact covers
  · exact h i q ((only.other i here).symm.trans foundAt)

theorem Follows.size_le {R : ModuleRecord → ModuleRecord → Prop} (h : Follows R s t) :
    s.modules.length ≤ t.modules.length := by
  by_contra fewer
  obtain ⟨r', found, _⟩ := h.old t.modules.length _ (List.getElem?_eq_getElem (by omega))
  exact absurd (List.getElem?_eq_some_iff.1 found).1 (Nat.lt_irrefl _)

theorem Follows.covered {R : ModuleRecord → ModuleRecord → Prop} (h : Follows R s t)
    (keeps : ∀ (r r' : ModuleRecord) (size : Nat), R r r' → r.Covers size → r'.Covers size)
    (covered : s.Covered) : t.Covered :=
  h.invariant (fun _ fresh => fresh.covers _) (fun r r' move => keeps r r' _ move)
    fun i r found => (covered i r found).mono h.size_le

structure Keeping (s t : State) : Prop where
  moves : Follows Moves s t
  covered : s.Covered → t.Covered

theorem Keeping.of_same (h : Follows Eq s t) : Keeping s t := by
  constructor
  · exact h.mono fun _ _ same => same ▸ .refl
  · exact h.covered fun _ _ _ same covers => same ▸ covers

theorem Keeping.trans (h : Keeping s t) (k : Keeping t u) : Keeping s u :=
  ⟨h.moves.trans ModuleRecord.moves_course k.moves, fun covered => k.covered (h.covered covered)⟩

theorem Keeping.of_modules (same : t.modules = s.modules) : Keeping s t :=
  .of_same (.of_modules ModuleRecord.eq_course same)

theorem keeping_sequential : Sequential (Action.Along Keeping) :=
  .ofRelation (fun _ => .of_modules rfl) Keeping.trans fun _ _ => .of_modules rfl

section

variable {resolve : Resolver} {referrer : ModuleId} {specifiers : List String} {seen' : Seen}
  {deps : List (String × ModuleId)}

theorem exists_of_linkWithin (run : (linkWithin resolve depth id seen).run s = (.ok seen', t)) :
    id < s.modules.length := by
  cases depth with
  | zero => cases run
  | succ depth =>
    cases linkWithin_result run with
    | done found | linked found => exact (List.getElem?_eq_some_iff.1 found).1

theorem bound_of_linkImports
    (resolves : ∀ specifier referrer, (resolve specifier referrer).Along Keeping)
    (follows : ∀ id seen, (linkWithin resolve depth id seen).Along Keeping)
    (run : (linkImports resolve (linkWithin resolve depth) referrer specifiers seen).run s =
      (.ok (seen', deps), t)) : ∀ dep ∈ deps, dep.2 < t.modules.length := by
  induction specifiers generalizing seen s deps with
  | nil =>
    cases run
    nofun
  | cons specifier rest ih =>
    obtain ⟨dep, u, seen₁, v, deps', _, linked, others, rfl⟩ := linkImports_cons_ok.1 run
    have here := exists_of_linkWithin linked
    have first := follows dep (seen.insert specifier dep) u
    have second := keeping_sequential.linkImports resolves follows referrer rest seen₁ v
    rw [linked] at first
    rw [others] at second
    intro d member
    rcases List.mem_cons.1 member with rfl | later
    · exact Nat.lt_of_lt_of_le here (Nat.le_trans first.moves.size_le second.moves.size_le)
    · exact ih others d later

theorem Covered.marked (h : s.Covered) (found : s.modules[id]? = some r) :
    (s.modified id ({ · with status := .linking })).Covered :=
  h.modified found ⟨fun linked => absurd rfl linked.2, (h id r found).bound⟩

theorem linkWithin_keeping
    (resolves : ∀ specifier referrer, (resolve specifier referrer).Along Keeping) (depth : Nat)
    (id : ModuleId) (seen : Seen) : (linkWithin resolve depth id seen).Along Keeping := by
  have course := ModuleRecord.moves_course
  have follows := linkWithin_follows course (fun _ _ move => .single (.inl move))
    fun specifier referrer s => (resolves specifier referrer s).moves
  induction depth generalizing id seen with
  | zero => exact fun s => keeping_sequential.throw _ s
  | succ depth ih =>
    refine fun s => ⟨follows (depth + 1) id seen s, fun covered => ?_⟩
    -- The imports find the module marked and leave it so.
    have imported {r : ModuleRecord} {t : State}
        {outcome : Except LoadError (Seen × List (String × ModuleId))}
        (found : s.modules[id]? = some r)
        (imports : (linkImports resolve (linkWithin resolve depth) id r.body.specifiers seen).run
          (s.modified id ({ · with status := .linking })) = (outcome, t)) :
        t.Covered ∧ t.modules[id]? = some { r with status := .linking } := by
      have inner := keeping_sequential.linkImports resolves ih id r.body.specifiers seen
        (s.modified id ({ · with status := .linking }))
      rw [imports] at inner
      exact ⟨inner.covered (covered.marked found),
        inner.moves.busy course (getElem?_modified found _) (by simp [Status.Rests])⟩
    cases run : (linkWithin resolve (depth + 1) id seen).run s
    cases linkWithin_result run with
    | missing | done | refused => exact covered
    | linked found status imports =>
      obtain ⟨after, kept⟩ := imported found imports
      exact after.modified kept ⟨fun _ => names_of_linkImports imports,
        bound_of_linkImports resolves ih imports⟩
    | failed found status imports =>
      obtain ⟨after, kept⟩ := imported found imports
      exact after.modified kept ⟨fun linked => absurd rfl linked.1, (after id _ kept).bound⟩

theorem link_keeping
    (resolves : ∀ specifier referrer, (resolve specifier referrer).Along Keeping)
    (id : ModuleId) : (link resolve id).Along Keeping := by
  intro s
  rw [run_link]
  have linked := keeping_sequential.bind
    (linkWithin_keeping resolves (s.modules.length + 2) id []) fun _ => keeping_sequential.pure ()
  have recorded : Keeping s { s with events := s.events ++ [.link id] } := .of_modules rfl
  exact recorded.trans (linked _)

end

theorem evaluateWithin_keeping (depth : Nat) (id : ModuleId) :
    (evaluateWithin depth id).Along Keeping := by
  intro s
  have follows := evaluateWithin_follows ModuleRecord.evalMove_course (fun _ _ h => h) depth id s
  exact ⟨follows.mono fun _ _ move => .single (.inr move),
    follows.covered fun _ _ _ move => move.covers⟩

theorem evaluate_keeping (id : ModuleId) : (evaluate id).Along Keeping := by
  intro s
  rw [run_evaluate]
  have recorded : Keeping s { s with events := s.events ++ [.evaluate id] } := .of_modules rfl
  exact recorded.trans (evaluateWithin_keeping _ id _)

theorem keeping_making : Making (Action.Along Keeping) := by
  have same := follows_making ModuleRecord.eq_course
  constructor
  case toSequential => exact keeping_sequential
  case moduleAt => exact fun id s => .of_same (same.moduleAt id s)
  case request => exact fun specifier s => .of_same (same.request specifier s)
  case compile => exact fun b source s => .of_same (same.compile b source s)
  case sourceModule =>
    exact fun b source cached context s => .of_same (same.sourceModule b source cached context s)
  case syntheticModule =>
    exact fun names setup context s => .of_same (same.syntheticModule names setup context s)

theorem keeping_stepwise : Stepwise (Action.Along Keeping) := by
  constructor
  case toMaking => exact keeping_making
  case link => exact link_keeping
  case evaluate => exact evaluate_keeping

theorem resolver_keeping (answers : Answers) (specifier : String) (referrer : ModuleId) :
    (answers.resolver specifier referrer).Along Keeping := by
  intro s
  rw [run_resolver]
  exact .of_modules rfl

theorem next_keeping (s : State) (op : Operation) : Keeping s (op.next s) := by
  have follows := next_follows s op
  cases op with
  | link answers id => exact link_keeping (resolver_keeping answers) id s
  | evaluate id => exact evaluate_keeping id s
  | _ => exact .of_same follows

theorem Step.keeping (h : Step s t) : Keeping s t := by
  have imports := Load.imports_stepwise keeping_stepwise
  cases h with
  | operation op => exact next_keeping s op
  | resolve l load specifier referrer => exact imports l load specifier referrer s
  | link l load id => exact link_keeping (imports l load) id s
  | load l context load => exact load.run_stepwise keeping_stepwise l context s

theorem Reaches.covered (h : Reaches {} s) : s.Covered := by
  induction h with
  | refl => exact covered_empty
  | tail _ step ih => exact step.keeping.covered ih

/-- The states while the imports of a module are linked, up to the first that fails. -/
def linkEachStates (resolve : Resolver) (states : ModuleId → Seen → State → List State)
    (linkDep : ModuleId → Seen → Action Seen) (referrer : ModuleId) :
    List String → Seen → State → List State
  | [], _, s => [s]
  | specifier :: rest, seen, s =>
    s :: match (resolveOnce resolve referrer seen specifier).run s with
      | (.error _, t) => [t]
      | (.ok dep, t) =>
        states dep (seen.insert specifier dep) t ++
          match (linkDep dep (seen.insert specifier dep)).run t with
          | (.error _, _) => []
          | (.ok seen, u) => linkEachStates resolve states linkDep referrer rest seen u

def linkStates (resolve : Resolver) : (depth : Nat) → ModuleId → Seen → State → List State
  | 0, _, _, s => [s]
  | depth + 1, id, seen, s =>
    let within :=
      match s.modules[id]? with
      | none => []
      | some r =>
        if r.status = .unlinked then
          linkEachStates resolve (linkStates resolve depth) (linkWithin resolve depth) id
            r.body.specifiers seen (s.modified id ({ · with status := .linking }))
        else []
    s :: within ++ [((linkWithin resolve (depth + 1) id seen).run s).2]

def evaluateEachStates (states : ModuleId → State → List State)
    (evaluate : ModuleId → Action Unit) : List (String × ModuleId) → State → List State
  | [], s => [s]
  | dep :: deps, s =>
    states dep.2 s ++
      match (evaluate dep.2).run s with
      | (.error _, _) => []
      | (.ok _, t) => evaluateEachStates states evaluate deps t

def evaluateStates : (depth : Nat) → ModuleId → State → List State
  | 0, _, s => [s]
  | depth + 1, id, s =>
    let within :=
      match s.modules[id]? with
      | none => []
      | some r =>
        if r.status = .linked then
          evaluateEachStates (evaluateStates depth) (evaluateWithin depth) r.deps
            (s.modified id fun r => { r with status := .evaluating, body := r.body.begun })
        else []
    s :: within ++ [((evaluateWithin (depth + 1) id).run s).2]

/-- The states that an operation goes through after it was called. -/
def statesOf (s : State) : Operation → List State
  | .link answers id =>
    linkStates answers.resolver (s.modules.length + 2) id []
      { s with events := s.events ++ [.link id] }
  | .evaluate id =>
    evaluateStates (s.modules.length + 1) id { s with events := s.events ++ [.evaluate id] }
  | op => [op.next s]

def through (s : State) : List Operation → List State
  | [] => [s]
  | op :: ops => s :: (s.statesOf op ++ (op.next s).through ops)

section

variable {resolve : Resolver}

theorem linkEachStates_covered {states : ModuleId → Seen → State → List State}
    {linkDep : ModuleId → Seen → Action Seen}
    (resolves : ∀ specifier referrer, (resolve specifier referrer).Along Keeping)
    (links : ∀ id seen, (linkDep id seen).Along Keeping)
    (within : ∀ (id : ModuleId) (seen : Seen) (s : State), s.Covered →
      ∀ u ∈ states id seen s, u.Covered)
    (referrer : ModuleId) (specifiers : List String) (seen : Seen) (covered : s.Covered) :
    ∀ u ∈ linkEachStates resolve states linkDep referrer specifiers seen s, u.Covered := by
  induction specifiers generalizing seen s with
  | nil =>
    intro u member
    rwa [List.mem_singleton.1 member]
  | cons specifier rest ih =>
    intro u member
    rw [linkEachStates] at member
    rcases List.mem_cons.1 member with rfl | member
    · exact covered
    have resolved : ((resolveOnce resolve referrer seen specifier).run s).2.Covered := by
      rw [resolveOnce]
      split
      · exact covered
      · exact (keeping_sequential.bind (keeping_sequential.record _) (fun _ =>
          resolves specifier referrer) s).covered covered
    revert resolved member
    rcases (resolveOnce resolve referrer seen specifier).run s with ⟨e | dep, t⟩
    · intro member resolved
      rwa [List.mem_singleton.1 member]
    · intro member resolved
      rcases List.mem_append.1 member with first | later
      · exact within dep _ t resolved u first
      · have linked := (links dep (seen.insert specifier dep) t).covered resolved
        revert linked later
        rcases (linkDep dep (seen.insert specifier dep)).run t with ⟨e | seen', v⟩
        · intro later
          cases later
        · exact fun later linked => ih seen' linked u later

theorem linkStates_covered
    (resolves : ∀ specifier referrer, (resolve specifier referrer).Along Keeping) (depth : Nat)
    (id : ModuleId) (seen : Seen) (s : State) (covered : s.Covered) :
    ∀ u ∈ linkStates resolve depth id seen s, u.Covered := by
  induction depth generalizing id seen s with
  | zero =>
    intro u member
    rwa [List.mem_singleton.1 member]
  | succ depth ih =>
    intro u member
    rcases List.mem_cons.1 member with rfl | member
    · exact covered
    rcases List.mem_append.1 member with member | last
    · cases found : s.modules[id]? with
      | none => simp [found] at member
      | some r =>
        simp only [found] at member
        split at member
        · exact linkEachStates_covered resolves (linkWithin_keeping resolves depth) ih id _ seen
            (covered.marked found) u member
        · cases member
    · rw [List.mem_singleton.1 last]
      exact (linkWithin_keeping resolves (depth + 1) id seen s).covered covered

end

theorem Covered.begun (h : s.Covered) (found : s.modules[id]? = some r)
    (linked : r.status = .linked) :
    (s.modified id fun r => { r with status := .evaluating, body := r.body.begun }).Covered :=
  h.modified found ((h id r found).begun linked .evaluating r.exports)

theorem evaluateEachStates_covered {states : ModuleId → State → List State}
    {evaluate : ModuleId → Action Unit} (evaluates : ∀ id, (evaluate id).Along Keeping)
    (within : ∀ (id : ModuleId) (s : State), s.Covered → ∀ u ∈ states id s, u.Covered)
    (deps : List (String × ModuleId)) (covered : s.Covered) :
    ∀ u ∈ evaluateEachStates states evaluate deps s, u.Covered := by
  induction deps generalizing s with
  | nil =>
    intro u member
    rwa [List.mem_singleton.1 member]
  | cons dep deps ih =>
    intro u member
    rcases List.mem_append.1 member with first | later
    · exact within dep.2 s covered u first
    · have evaluated := (evaluates dep.2 s).covered covered
      revert evaluated later
      rcases (evaluate dep.2).run s with ⟨e | _, t⟩
      · nofun
      · exact fun later evaluated => ih evaluated u later

theorem evaluateStates_covered (depth : Nat) (id : ModuleId) (s : State) (covered : s.Covered) :
    ∀ u ∈ evaluateStates depth id s, u.Covered := by
  induction depth generalizing id s with
  | zero =>
    intro u member
    rwa [List.mem_singleton.1 member]
  | succ depth ih =>
    intro u member
    rcases List.mem_cons.1 member with rfl | member
    · exact covered
    rcases List.mem_append.1 member with member | last
    · cases found : s.modules[id]? with
      | none => simp [found] at member
      | some r =>
        simp only [found] at member
        split at member
        · exact evaluateEachStates_covered (evaluateWithin_keeping depth) ih r.deps
            (covered.begun found ‹_›) u member
        · cases member
    · rw [List.mem_singleton.1 last]
      exact (evaluateWithin_keeping (depth + 1) id s).covered covered

theorem statesOf_covered (covered : s.Covered) (op : Operation) :
    ∀ u ∈ s.statesOf op, u.Covered := by
  cases op with
  | link answers id =>
    exact linkStates_covered (resolver_keeping answers) _ id [] _ (covered.of_modules rfl)
  | evaluate id => exact evaluateStates_covered _ id _ (covered.of_modules rfl)
  | _ =>
    intro u member
    rw [List.mem_singleton.1 member]
    exact (next_keeping s _).covered covered

theorem through_covered (covered : s.Covered) (ops : List Operation) :
    ∀ u ∈ s.through ops, u.Covered := by
  induction ops generalizing s with
  | nil =>
    intro u member
    rwa [List.mem_singleton.1 member]
  | cons op ops ih =>
    intro u member
    rcases List.mem_cons.1 member with rfl | member
    · exact covered
    rcases List.mem_append.1 member with during | later
    · exact statesOf_covered covered op u during
    · exact ih ((next_keeping s op).covered covered) u later

end State

namespace Entries

theorem get?_of_mem_keys {α : Type} {es : Entries α} {key : String} (member : key ∈ keys es) :
    ∃ value, get? es key = some value ∧ (key, value) ∈ es := by
  induction es with
  | nil => cases member
  | cons e es ih =>
    by_cases here : e.1 = key
    · exact ⟨e.2, if_pos here, by rw [← here]; exact List.mem_cons_self⟩
    · obtain ⟨value, found, later⟩ := ih ((List.mem_cons.1 member).resolve_left (Ne.symm here))
      exact ⟨value, by rw [get?, if_neg here, found], List.mem_cons_of_mem e later⟩

end Entries

theorem ModuleRecord.Covers.leads {r : ModuleRecord} {size : Nat} {script : Script}
    (h : r.Covers size) (linked : r.status.WasLinked) (source : r.body = .source script)
    {i : Import} (member : i ∈ script.imports) :
    ∃ dep, Entries.get? r.deps i.specifier = some dep ∧ dep < size := by
  have named := h.named linked
  rw [source] at named
  have key : i.specifier ∈ Entries.keys r.deps := by
    rw [Entries.keys, named]
    show i.specifier ∈ script.specifiers
    rw [State.specifiers_eq, List.mem_eraseDups]
    exact List.mem_map_of_mem member
  obtain ⟨dep, found, recorded⟩ := Entries.get?_of_mem_keys key
  exact ⟨dep, found, h.bound _ recorded⟩

inductive LoadError.Dangling : LoadError → Prop where
  | unlinkedImport (specifier : String) : Dangling (.link (.unlinkedImport specifier))
  | noModule (id : ModuleId) : Dangling (.noModule id)

theorem LoadError.OfScript.not_dangling {e : LoadError} (own : e.OfScript) : ¬e.Dangling := by
  cases own <;> nofun

theorem LoadError.OfSetup.not_dangling {e : LoadError} (own : e.OfSetup) : ¬e.Dangling := by
  cases own <;> nofun

namespace State

variable {s t : State} {id : ModuleId} {r : ModuleRecord}

theorem runModule_attached (covers : r.Covers s.modules.length) (linked : r.status.WasLinked) :
    FailsOnly (¬·.Dangling) (s.runModule r) := by
  rw [runModule]
  cases source : r.body with
  | source script =>
    refine Script.run_fails _ (fun _ => LoadError.OfScript.not_dangling) fun i member => ?_
    obtain ⟨dep, found, inside⟩ := covers.leads linked source member
    rw [exportsOf, found]
    show FailsOnly _ ((namespaceOf dep).run s).1
    rw [run_namespaceOf, List.getElem?_eq_getElem inside]
    dsimp only
    split
    · exact .ok _
    · refine .error fun dangling => ?_
      cases dangling
  | placeholder p => exact .ok _
  | synthetic names setup =>
    exact (setup_fails names setup).mono fun _ => LoadError.OfSetup.not_dangling

theorem evaluateEach_attached {evaluate : ModuleId → Action Unit}
    (evaluates : ∀ id, (evaluate id).Along Keeping)
    (one : ∀ (id : ModuleId) (s : State), s.Covered → id < s.modules.length →
      FailsOnly (¬·.Dangling) ((evaluate id).run s).1)
    (deps : List (String × ModuleId)) (covered : s.Covered)
    (inside : ∀ dep ∈ deps, dep.2 < s.modules.length) :
    FailsOnly (¬·.Dangling) ((deps.forM fun dep => evaluate dep.2).run s).1 := by
  induction deps generalizing s with
  | nil => exact .ok ()
  | cons dep deps ih =>
    have first := one dep.2 s covered (inside dep List.mem_cons_self)
    have keeping := evaluates dep.2 s
    show FailsOnly _ ((evaluate dep.2 >>= fun _ => deps.forM fun dep => evaluate dep.2).run s).1
    rw [Action.run_bind]
    revert first keeping
    rcases (evaluate dep.2).run s with ⟨e | _, t⟩
    · exact fun first _ => first
    · intro _ keeping
      refine ih (keeping.covered covered) fun d member => ?_
      exact Nat.lt_of_lt_of_le (inside d (List.mem_cons_of_mem dep member)) keeping.moves.size_le

/-- No module that is evaluated is missing, nor is a link of its body. -/
theorem evaluateWithin_attached (depth : Nat) (id : ModuleId) (s : State) (covered : s.Covered)
    (inside : id < s.modules.length) :
    FailsOnly (¬·.Dangling) ((evaluateWithin depth id).run s).1 := by
  induction depth generalizing id s with
  | zero => exact .error nofun
  | succ depth ih =>
    have begun {r : ModuleRecord} (found : s.modules[id]? = some r) (linked : r.status = .linked) :=
      covered.begun found linked
    have size := (onlyAt_modified s id fun r =>
      { r with status := .evaluating, body := r.body.begun }).size
    cases run : (evaluateWithin (depth + 1) id).run s
    cases evaluateWithin_result run with
    | missing missing => exact absurd inside (Nat.not_lt.2 (List.getElem?_eq_none_iff.1 missing))
    | done | evaluated => exact .ok _
    | refused | early => exact .error nofun
    | @wrongDeps r e t found linked failed =>
      have each := evaluateEach_attached (evaluateWithin_keeping depth) ih r.deps
        (begun found linked) (by rw [size]; exact (covered id r found).bound)
      rw [failed] at each
      exact each
    | @wrongBody r e t found linked deps ran =>
      have each : (r.deps.forM fun dep => evaluateWithin depth dep.2).Along Keeping :=
        keeping_sequential.forM fun dep => evaluateWithin_keeping depth dep.2
      have keeping := each
        (s.modified id fun r => { r with status := .evaluating, body := r.body.begun })
      rw [deps] at keeping
      have grown := keeping.moves.size_le
      rw [size] at grown
      have attached := runModule_attached ((covered id r found).mono grown)
        (by rw [linked]; exact ⟨nofun, nofun⟩)
      exact .error (attached e ran)

theorem evaluate_attached (covered : s.Covered) (inside : id < s.modules.length) :
    FailsOnly (¬·.Dangling) ((evaluate id).run s).1 := by
  rw [run_evaluate]
  exact evaluateWithin_attached _ id _ (covered.of_modules rfl) inside

/-- In every state that operations go through, from any state of an engine on: links lead to
modules, and a script that was linked has one link for each specifier of its imports, in the order
in which they first appear. No evaluation of a module finds an import without a link or a link
without a module. -/
theorem links_cover_imports {s : State} (reached : Reaches {} s) (ops : List Operation) :
    (∀ u ∈ s.through ops, ∀ (id : ModuleId) (r : ModuleRecord), u.modules[id]? = some r →
      (∀ dep ∈ r.deps, dep.2 < u.modules.length) ∧
      ∀ script, r.body = .source script → r.status.WasLinked →
        r.deps.map (·.1) = script.specifiers ∧
        script.specifiers = (script.imports.map (·.specifier)).eraseDups ∧
        ∀ i ∈ script.imports, ∃ dep,
          Entries.get? r.deps i.specifier = some dep ∧ dep < u.modules.length) ∧
    ∀ id < (s.after ops).modules.length, ∀ e,
      ((evaluate id).run (s.after ops)).1 = .error e → ¬e.Dangling := by
  constructor
  · intro u member id r found
    have covers := through_covered reached.covered ops u member id r found
    refine ⟨covers.bound, fun script source linked => ?_⟩
    have named := covers.named linked
    rw [source] at named
    exact ⟨named, specifiers_eq script, fun i => covers.leads linked source⟩
  · intro id inside
    have later : Reaches {} (s.after ops) := reached.trans (reaches_after s ops)
    exact evaluate_attached later.covered inside

/-- In a ring of two modules: while the first is evaluated, the second is too, with its link. -/
theorem links_cover_imports_ring :
    let s := after {} (pair (.ofVersion "14.0.0" 0))
    let link : Operation := .link (.ofTable [("a", 0), ("b", 1), ("x", 1)]) 0
    Reaches {} s ∧
      (∃ u ∈ s.through [link, .evaluate 0], ∃ r : ModuleRecord, u.modules[1]? = some r ∧
        r.body = .source pairSecond ∧ r.status = .evaluating ∧
        r.deps.map (·.1) = pairSecond.specifiers ∧
        ∃ dep, Entries.get? r.deps "a" = some dep ∧ dep < u.modules.length) ∧
      ∃ e, ((evaluate 0).run (s.after [link])).1 = .error e ∧ ¬e.Dangling := by
  intro s link
  have reached : Reaches {} s := reaches_after {} _
  obtain ⟨covered, _⟩ := links_cover_imports reached [link, .evaluate 0]
  obtain ⟨_, attached⟩ := links_cover_imports reached [link]
  have start : s = _ := after_pair (.ofVersion "14.0.0" 0)
  -- The mark of the second module, set within the evaluation of the first.
  obtain ⟨u, during, r, found, source, status⟩ : ∃ u ∈ s.through [link, .evaluate 0],
      ∃ r : ModuleRecord, u.modules[1]? = some r ∧ r.body = .source pairSecond ∧
        r.status = .evaluating := by
    rw [start]
    refine ⟨_, .tail _ (List.mem_append_right _ (.tail _ (List.mem_append_left _ (.tail _
      (List.mem_append_left _ (List.mem_append_left _ (.tail _ (List.mem_append_left _
        (List.mem_append_left _ (.head _)))))))))), ?_⟩
    exact ⟨_, rfl, rfl, rfl⟩
  obtain ⟨_, scripts⟩ := covered u during 1 r found
  obtain ⟨named, _, leads⟩ := scripts pairSecond source (by rw [status]; exact ⟨nofun, nofun⟩)
  obtain ⟨e, failed⟩ : ∃ e, ((evaluate 0).run (s.after [link])).1 = .error e := by
    rw [start]
    exact ⟨_, rfl⟩
  have inside : 0 < (s.after [link]).modules.length := by
    rw [start]
    decide
  exact ⟨reached, ⟨u, during, r, found, source, status, named,
    leads { specifier := "a", bindings := [] } List.mem_cons_self⟩, e, failed,
    attached 0 inside e failed⟩

end State

end CodeCache
