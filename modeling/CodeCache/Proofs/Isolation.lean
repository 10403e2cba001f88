import CodeCache.Proofs.Refinement
import Mathlib.Logic.Relation

/-! # Runs share nothing

A run makes modules of its own and links them to each other. It leaves the modules that exist and
the globals of all contexts as they are, whatever state the engine is in and wherever the run fails;
so it is also for a load inside the link pass of another module. -/

namespace CodeCache

open Relation (ReflTransGen)
open State (Keeps Resolver Seen)

namespace State

variable {n k k' : Nat} {s t : State} {i j : ModuleId}

structure New (n k : Nat) (id : ModuleId) : Prop where
  later : n ≤ id
  made : id < k

theorem New.mono (h : New n k i) (grown : k ≤ k') : New n k' i :=
  ⟨h.later, Nat.lt_of_lt_of_le h.made grown⟩

def AllNew (n k : Nat) (deps : List (String × ModuleId)) : Prop := ∀ dep ∈ deps, New n k dep.2

namespace AllNew

variable {deps : List (String × ModuleId)} {seen : Seen}

theorem nil : AllNew n k [] := by
  intro dep member
  cases member

theorem mono (h : AllNew n k deps) (grown : k ≤ k') : AllNew n k' deps := by
  intro dep member
  exact (h dep member).mono grown

theorem cons (h : AllNew n k deps) (specifier : String) (new : New n k i) :
    AllNew n k ((specifier, i) :: deps) := by
  intro dep member
  rcases List.mem_cons.1 member with rfl | member
  · exact new
  · exact h dep member

theorem tail {dep : String × ModuleId} (h : AllNew n k (dep :: deps)) : AllNew n k deps := by
  intro other member
  exact h other (List.mem_cons_of_mem _ member)

theorem insert (h : AllNew n k seen) (specifier : String) (new : New n k i) :
    AllNew n k (seen.insert specifier i) := by
  induction seen with
  | nil => exact nil.cons specifier new
  | cons e seen ih =>
    rw [Entries.insert]
    split
    · exact h.tail.cons specifier new
    · exact (ih h.tail).cons e.1 (h e List.mem_cons_self)

theorem get? (h : AllNew n k seen) {specifier : String}
    (found : Entries.get? seen specifier = some i) : New n k i := by
  induction seen with
  | nil => cases found
  | cons e seen ih =>
    rw [Entries.get?] at found
    split at found
    · cases found
      exact h e List.mem_cons_self
    · exact ih h.tail found

end AllNew

/-- The modules from number `n` on were linked to such modules only. -/
def Sealed (n : Nat) (s : State) : Prop :=
  ∀ (i : ModuleId) (r : ModuleRecord), n ≤ i → s.modules[i]? = some r →
    AllNew n s.modules.length r.deps

theorem sealed_length (s : State) : Sealed s.modules.length s := by
  intro i r later found
  exact absurd (List.getElem?_eq_some_iff.1 found).1 (Nat.not_lt.2 later)

def DependsOn (s : State) (i j : ModuleId) : Prop :=
  ∃ r : ModuleRecord, s.modules[i]? = some r ∧ ∃ dep ∈ r.deps, dep.2 = j

theorem Sealed.dependsOn (h : Sealed n s) (later : n ≤ i) (edge : s.DependsOn i j) :
    New n s.modules.length j := by
  obtain ⟨r, found, dep, member, rfl⟩ := edge
  exact h i r later found dep member

theorem Sealed.reaches (h : Sealed n s)
    (same : ∀ i < s.modules.length, t.modules[i]? = s.modules[i]?)
    (start : New n s.modules.length i) (reach : ReflTransGen t.DependsOn i j) :
    New n s.modules.length j := by
  induction reach with
  | refl => exact start
  | tail _ edge ih =>
    obtain ⟨r, found, dep⟩ := edge
    exact h.dependsOn ih.later ⟨r, (same _ ih.made).symm.trans found, dep⟩

end State

open State (New AllNew Sealed)

/-- Where there are `k` modules, the computation leaves the first `n` records and the contexts alone
and links new modules to new ones only; what it returns stands in a relation to the number of
modules then. -/
def Apart {α : Type} (n k : Nat) (a : Action α) (Q : α → Nat → Prop) : Prop :=
  ∀ s : State, n ≤ s.modules.length → k ≤ s.modules.length → Sealed n s →
    Keeps n s (a.run s).2 ∧ Sealed n (a.run s).2 ∧
      ∀ x, (a.run s).1 = .ok x → Q x (a.run s).2.modules.length

namespace Apart

variable {α β : Type} {n k : Nat} {P : α → Nat → Prop} {Q : β → Nat → Prop}

theorem pure {x : α} (h : ∀ k', k ≤ k' → P x k') : Apart n k (pure x) P := by
  intro s _ grown sealed
  refine ⟨.refl n s, sealed, ?_⟩
  intro y same
  cases same
  exact h _ grown

theorem throw (e : LoadError) : Apart n k (throw e) P := by
  intro s _ _ sealed
  refine ⟨.refl n s, sealed, ?_⟩
  intro y same
  cases same

theorem bind {a : Action α} {f : α → Action β} (ha : Apart n k a P)
    (hf : ∀ x k', k ≤ k' → P x k' → Apart n k' (f x) Q) : Apart n k (a >>= f) Q := by
  intro s size grown sealed
  obtain ⟨keeps, sealed', result⟩ := ha s size grown sealed
  rw [Action.run_bind]
  cases first : a.run s with
  | mk outcome t =>
    rw [first] at keeps sealed' result
    cases outcome with
    | error e =>
      refine ⟨keeps, sealed', ?_⟩
      intro y same
      cases same
    | ok x =>
      have later := hf x t.modules.length (Nat.le_trans grown keeps.size) (result x rfl)
      obtain ⟨keeps', others⟩ := later t (Nat.le_trans size keeps.size) (Nat.le_refl _) sealed'
      exact ⟨keeps.trans keeps', others⟩

theorem seq {a : Action α} {f : α → Action β} (ha : Apart n k a P)
    (hf : ∀ x, Apart n k (f x) Q) : Apart n k (a >>= f) Q := by
  apply ha.bind
  intro x k' grown _ s size grown'
  exact hf x s size (Nat.le_trans grown grown')

theorem tryCatch {a : Action α} {h : LoadError → Action α} (ha : Apart n k a P)
    (hh : ∀ e, Apart n k (h e) P) : Apart n k (tryCatch a h) P := by
  intro s size grown sealed
  obtain ⟨keeps, sealed', result⟩ := ha s size grown sealed
  rw [Action.run_tryCatch]
  cases first : a.run s with
  | mk outcome t =>
    rw [first] at keeps sealed' result
    cases outcome with
    | error e =>
      obtain ⟨keeps', others⟩ :=
        hh e t (Nat.le_trans size keeps.size) (Nat.le_trans grown keeps.size) sealed'
      exact ⟨keeps.trans keeps', others⟩
    | ok x => exact ⟨keeps, sealed', result⟩

theorem get {f : State → Action β} (hf : ∀ s, Apart n k (f s) Q) : Apart n k (get >>= f) Q := by
  intro s size grown sealed
  rw [Action.run_bind_ok (Action.run_get s)]
  exact hf s s size grown sealed

theorem record (e : Event) : Apart n k (State.record e) fun _ _ => True := by
  intro s _ _ sealed
  exact ⟨State.keeps_events n s _, sealed, fun _ _ => trivial⟩

theorem request (specifier : String) :
    Apart n k (modify fun s => { s with requests := s.requests ++ [specifier] } : Action Unit)
      fun _ _ => True := by
  intro s _ _ sealed
  refine ⟨?_, sealed, fun _ _ => trivial⟩
  constructor
  · exact Nat.le_refl _
  · intro i _
    rfl
  · rfl

theorem add (body : ModuleBody) (context : Option String) (rejection : Option Blob.Rejection) :
    Apart n k (State.add { body, context, rejection }) fun id k' => New n k' id := by
  intro s size _ sealed
  rw [State.run_add]
  refine ⟨?_, ?_, ?_⟩
  · constructor
    · simp
    · intro i hi
      exact List.getElem?_append_left (Nat.lt_of_lt_of_le hi size)
    · rfl
  · intro i r later found
    rcases Nat.lt_or_ge i s.modules.length with old | new
    · rw [List.getElem?_append_left old] at found
      exact (sealed i r later found).mono (by simp)
    · rw [List.getElem?_append_right new, List.getElem?_singleton] at found
      split at found
      · cases found
        exact .nil
      · cases found
  · intro id same
    cases same
    exact ⟨size, by simp⟩

theorem update {id : ModuleId} {f : ModuleRecord → ModuleRecord} (new : New n k id)
    (links : ∀ (r : ModuleRecord) (k' : Nat), k ≤ k' → AllNew n k' r.deps → AllNew n k' (f r).deps) :
    Apart n k (State.update id f) fun _ _ => True := by
  intro s _ grown sealed
  rw [State.run_update_eq]
  have only := State.onlyAt_modified s id f
  refine ⟨only.keeps new.later, ?_, fun _ _ => trivial⟩
  intro i r later found
  show AllNew n (s.modified id f).modules.length r.deps
  rw [only.size]
  by_cases here : i = id
  · subst here
    rw [State.modified, List.getElem?_modify_eq] at found
    obtain ⟨old, was, rfl⟩ := Option.map_eq_some_iff.1 found
    exact links old _ grown (sealed i old later was)
  · rw [only.other i here] at found
    exact sealed i r later found

theorem setStatus {id : ModuleId} (new : New n k id) (status : Status) :
    Apart n k (State.setStatus id status) fun _ _ => True :=
  update new fun _ _ _ links => links

theorem moduleAt {id : ModuleId} (new : New n k id) :
    Apart n k (State.moduleAt id) fun r k' => AllNew n k' r.deps := by
  intro s _ _ sealed
  rw [State.run_moduleAt]
  cases found : s.modules[id]? with
  | none =>
    refine ⟨.refl n s, sealed, ?_⟩
    intro r same
    cases same
  | some r =>
    refine ⟨.refl n s, sealed, ?_⟩
    intro r' same
    cases same
    exact sealed id r new.later found

section

variable {resolve : Resolver} (hr : ∀ specifier referrer k, New n k referrer →
  Apart n k (resolve specifier referrer) fun id k' => New n k' id)

include hr

theorem resolveOnce {referrer : ModuleId} (new : New n k referrer) {seen : Seen}
    (known : AllNew n k seen) (specifier : String) :
    Apart n k (State.resolveOnce resolve referrer seen specifier) fun id k' => New n k' id := by
  rw [State.resolveOnce]
  cases found : Entries.get? seen specifier with
  | none => exact (record _).seq fun _ => hr specifier referrer k new
  | some id => exact pure fun k' grown => (known.get? found).mono grown

/-- By induction on the specifiers: what the pass has found so far are new modules. -/
theorem linkImports {linkDep : ModuleId → Seen → Action Seen}
    (hl : ∀ {id seen k}, New n k id → AllNew n k seen →
      Apart n k (linkDep id seen) fun seen k' => AllNew n k' seen)
    {referrer : ModuleId} (new : New n k referrer) (specifiers : List String) {seen : Seen}
    (known : AllNew n k seen) :
    Apart n k (State.linkImports resolve linkDep referrer specifiers seen) fun found k' =>
      AllNew n k' found.1 ∧ AllNew n k' found.2 := by
  induction specifiers generalizing seen k with
  | nil => exact pure fun k' grown => ⟨known.mono grown, .nil⟩
  | cons specifier rest ih =>
    apply (resolveOnce hr new known specifier).bind
    intro dep k₁ grown₁ newDep
    apply (hl newDep ((known.mono grown₁).insert specifier newDep)).bind
    intro seen' k₂ grown₂ known'
    apply (ih (new.mono (Nat.le_trans grown₁ grown₂)) known').bind
    intro found k₃ grown₃ all
    refine pure fun k' grown => ⟨all.1.mono grown, ?_⟩
    exact (all.2.mono grown).cons specifier (newDep.mono (by omega))

theorem linkWithin (depth : Nat) {id : ModuleId} (new : New n k id) {seen : Seen}
    (known : AllNew n k seen) :
    Apart n k (State.linkWithin resolve depth id seen) fun seen k' => AllNew n k' seen := by
  induction depth generalizing id seen k with
  | zero => exact throw _
  | succ depth ih =>
    apply (moduleAt new).seq
    intro r
    split
    · apply (setStatus new _).seq
      intro _
      apply tryCatch
      · apply (linkImports hr (fun new => ih new) new _ known).bind
        intro found k' grown all
        refine seq (P := fun _ _ => True) (update (new.mono grown) ?_) fun _ => ?_
        · exact fun _ _ more _ => all.2.mono more
        · exact pure fun _ more => all.1.mono more
      · intro e
        exact (setStatus new _).seq fun _ => throw e
    · exact throw _
    · exact pure fun _ grown => known.mono grown

theorem link {id : ModuleId} (new : New n k id) :
    Apart n k (State.link resolve id) fun _ _ => True := by
  apply (record _).seq
  intro _
  apply get
  intro s
  apply (linkWithin hr _ new .nil).seq
  intro _
  exact pure fun _ _ => trivial

end

theorem forM {deps : List (String × ModuleId)} {f : String × ModuleId → Action Unit}
    (h : ∀ dep ∈ deps, Apart n k (f dep) fun _ _ => True) :
    Apart n k (deps.forM f) fun _ _ => True := by
  induction deps with
  | nil => exact pure fun _ _ => trivial
  | cons dep deps ih =>
    apply (h dep List.mem_cons_self).seq
    intro _
    exact ih fun dep member => h dep (List.mem_cons_of_mem _ member)

theorem evaluateWithin (depth : Nat) {id : ModuleId} (new : New n k id) :
    Apart n k (State.evaluateWithin depth id) fun _ _ => True := by
  induction depth generalizing id k with
  | zero => exact throw _
  | succ depth ih =>
    apply (moduleAt new).bind
    intro r k' grown links
    have here := new.mono grown
    split
    · refine seq (P := fun _ _ => True) (update here ?_) fun _ => ?_
      · exact fun _ _ _ same => same
      apply tryCatch
      · apply (forM fun dep member => ih (links dep member)).seq
        intro _
        apply get
        intro s
        have ran : Apart n k' (State.evaluateWithin.liftExcept (State.runModule s r))
            fun _ _ => True := by
          cases State.runModule s r with
          | ok exports => exact pure fun _ _ => trivial
          | error e => exact throw e
        apply ran.seq
        intro exports
        exact update here fun _ _ _ same => same
      · intro e
        exact (setStatus here _).seq fun _ => throw e
    · exact pure fun _ _ => trivial
    · exact pure fun _ _ => trivial
    · exact throw _
    · exact throw _
    · exact throw _

theorem evaluate {id : ModuleId} (new : New n k id) :
    Apart n k (State.evaluate id) fun _ _ => True := by
  apply (record _).seq
  intro _
  apply get
  intro s
  exact evaluateWithin _ new

theorem sourceModule (b : Build) (source : Source) (cached : Option Bytes)
    (context : Option String) :
    Apart n k (State.sourceModule b source cached context) fun id k' => New n k' id := by
  rw [State.sourceModule]
  cases State.instantiate b source cached with
  | error e => exact throw _
  | ok made =>
    apply (add _ _ _).bind
    intro id k' _ new
    apply (record _).seq
    intro _
    exact pure fun _ grown => new.mono grown

theorem syntheticModule (names : List String) (setup : Setup) (context : Option String) :
    Apart n k (State.syntheticModule names setup context) fun id k' => New n k' id := by
  apply (add _ _ _).bind
  intro id k' _ new
  apply (record _).seq
  intro _
  exact pure fun _ grown => new.mono grown

theorem require (known : Packages) (specifier : String) :
    Apart n k (Package.require known specifier) fun _ _ => True := by
  apply (request specifier).seq
  intro _
  cases known.answer specifier with
  | ok package => exact pure fun _ _ => trivial
  | error e => exact throw e

variable (l : Loader)

theorem patch (blob : Bytes) : Apart n k (l.patch blob) fun _ _ => True := by
  rw [Loader.patch]
  cases Version.parse? l.build.version with
  | none => exact throw _
  | some v =>
    have compiled : Apart n k (State.compile l.build l.config.referenceSource)
        fun _ _ => True := by
      apply (record _).seq
      intro _
      cases l.build.compile l.config.referenceSource with
      | ok blob => exact pure fun _ _ => trivial
      | error e => exact throw _
    apply compiled.seq
    intro _
    exact pure fun _ _ => trivial

theorem openBlob (origin : Option Path) (context : Option String) (blob : Bytes) :
    Apart n k (l.openBlob origin context blob) fun id k' => New n k' id := by
  apply (patch l blob).seq
  intro patched
  have placeholder : Apart n k (Loader.placeholderFor patched.2) fun _ _ => True := by
    rw [Loader.placeholderFor]
    cases Placeholder.ofBlob patched.2 with
    | ok p => exact pure fun _ _ => trivial
    | error e => exact throw _
  apply placeholder.seq
  intro p
  apply (sourceModule _ _ _ _).bind
  intro id k' _ new
  apply (moduleAt new).seq
  intro r
  have made : Apart n k' (Pure.pure id) fun id k' => New n k' id :=
    pure fun _ grown => new.mono grown
  split
  · exact (throw (P := fun _ _ => True) _).seq fun _ => made
  · exact made

theorem runBlob {resolve : Resolver} (hr : ∀ specifier referrer k, New n k referrer →
      Apart n k (resolve specifier referrer) fun id k' => New n k' id)
    (origin : Option Path) (context : Option String) (blob : Bytes) :
    Apart n k (l.runBlob resolve origin context blob) fun id k' => New n k' id := by
  apply (openBlob l origin context blob).bind
  intro id k' _ new
  apply (link hr new).seq
  intro _
  apply (evaluate new).seq
  intro _
  exact pure fun _ grown => new.mono grown

theorem resolveImport {runImport : Option String → Path → Action ModuleId}
    (hr : ∀ context p k, Apart n k (runImport context p) fun id k' => New n k' id)
    (specifier : String) {referrer : ModuleId} (new : New n k referrer) :
    Apart n k (l.resolveImport runImport specifier referrer) fun id k' => New n k' id := by
  apply (moduleAt new).seq
  intro r
  split
  · exact hr _ _ k
  · apply (require _ _).seq
    intro package
    exact syntheticModule _ _ _

theorem runPathWithin (depth : Nat) (importers : List Path) (context : Option String) (p : Path) :
    Apart n k (l.runPathWithin depth importers context p) fun id k' => New n k' id := by
  induction depth generalizing importers context p k with
  | zero => exact throw _
  | succ depth ih =>
    have opened : Apart n k (l.readBlob p >>= fun blob =>
        l.runBlob (l.resolveImport (l.runPathWithin depth (importers ++ [p]))) (some p) context
          blob) fun id k' => New n k' id := by
      have read : Apart n k (l.readBlob p) fun _ _ => True := by
        rw [Loader.readBlob]
        cases l.storage.read p with
        | ok content => exact pure fun _ _ => trivial
        | error e => exact throw _
      apply read.seq
      intro blob
      apply runBlob
      intro specifier referrer k new
      exact resolveImport l (fun context p k => ih _ context p) specifier new
    rw [Loader.runPathWithin]
    split
    · exact (throw (P := fun _ _ => True) _).seq fun _ => opened
    · exact opened

theorem run (context : Option String) (origin : BlobOrigin) :
    Apart n k (l.run context origin) fun id k' => New n k' id := by
  cases origin with
  | path p => exact runPathWithin l _ [] context p
  | bytes blob =>
    apply runBlob
    intro specifier referrer k new
    exact resolveImport l (fun context p k => runPathWithin l _ [] context p) specifier new

end Apart

/-- What a run from one state to another leaves alone: the modules that exist and the globals. The
modules it makes come after them, and depend on each other only. -/
structure Isolated (s : State) (outcome : Except LoadError ModuleId) (t : State) : Prop where
  size : s.modules.length ≤ t.modules.length
  records : ∀ i < s.modules.length, t.modules[i]? = s.modules[i]?
  contexts : t.contexts = s.contexts
  made : ∀ id, outcome = .ok id → New s.modules.length t.modules.length id
  depends : ∀ i j, New s.modules.length t.modules.length i → ReflTransGen t.DependsOn i j →
    New s.modules.length t.modules.length j

theorem Apart.isolated {a : Action ModuleId} {s : State}
    (h : Apart s.modules.length s.modules.length a fun id k' => New s.modules.length k' id) :
    Isolated s (a.run s).1 (a.run s).2 := by
  obtain ⟨keeps, sealed, made⟩ := h s (Nat.le_refl _) (Nat.le_refl _) s.sealed_length
  constructor
  · exact keeps.size
  · exact keeps.old
  · exact keeps.contexts
  · exact made
  · intro i j
    exact sealed.reaches fun _ _ => rfl

theorem length_le_of_same {s t : State}
    (same : ∀ i < s.modules.length, t.modules[i]? = s.modules[i]?) :
    s.modules.length ≤ t.modules.length := by
  by_contra fewer
  have short := Nat.not_le.1 fewer
  have found := same t.modules.length short
  rw [List.getElem?_eq_none (Nat.le_refl _), List.getElem?_eq_getElem short] at found
  cases found

namespace Loader

/-- Runs share nothing. A run, and a load within the link pass of another module, leaves everything
alone that exists. What a second run comes to has no module in common with what the first one came
to, as long as the records of the first one are left alone in between. -/
theorem run_isolated (l : Loader) (s : State) :
    (∀ context origin,
      Isolated s ((l.run context origin).run s).1 ((l.run context origin).run s).2) ∧
    (∀ depth importers context p,
      Isolated s ((l.runPathWithin depth importers context p).run s).1
        ((l.runPathWithin depth importers context p).run s).2) ∧
    ∀ context origin id t, (l.run context origin).run s = (.ok id, t) →
      ∀ context' origin' u id' v, (∀ i < t.modules.length, u.modules[i]? = t.modules[i]?) →
        (l.run context' origin').run u = (.ok id', v) →
          ∀ i, ReflTransGen v.DependsOn id i → ¬ReflTransGen v.DependsOn id' i := by
  have isolated (context : Option String) (origin : BlobOrigin) (s : State) :
      Isolated s ((l.run context origin).run s).1 ((l.run context origin).run s).2 :=
    (Apart.run l context origin).isolated
  refine ⟨fun context origin => isolated context origin s, ?_, ?_⟩
  · intro depth importers context p
    exact (Apart.runPathWithin l depth importers context p).isolated
  · intro context origin id t ran context' origin' u id' v same ran' i reach reach'
    obtain ⟨_, sealed, made⟩ := Apart.run (n := s.modules.length) (k := s.modules.length) l context
      origin s (Nat.le_refl _) (Nat.le_refl _) s.sealed_length
    rw [ran] at sealed made
    have second := isolated context' origin' u
    rw [ran'] at second
    have grown := length_le_of_same same
    -- No later run changes the records of the first one, so that what it made is all there is to it.
    have unchanged : ∀ i < t.modules.length, v.modules[i]? = t.modules[i]? := by
      intro i old
      exact (second.records i (Nat.lt_of_lt_of_le old grown)).trans (same i old)
    have first := sealed.reaches unchanged (made id rfl) reach
    have later := second.depends id' i (second.made id' rfl) reach'
    exact absurd (Nat.lt_of_lt_of_le first.made grown) (Nat.not_lt.2 later.later)

/-- Two runs of the blob of the answer, one after the other, have no module in common. -/
theorem run_isolated_answer :
    ∃ blob id t id' v, (plain 1).build.compile Sample.answer = .ok blob ∧
      ((plain 1).run none (.bytes blob)).run {} = (.ok id, t) ∧
      ((plain 1).run none (.bytes blob)).run t = (.ok id', v) ∧
      ∀ i, ReflTransGen v.DependsOn id i → ¬ReflTransGen v.DependsOn id' i := by
  obtain ⟨blob, compiled⟩ : ∃ blob, (plain 1).build.compile Sample.answer = .ok blob :=
    ⟨_, Build.compile_eq parse_answer _⟩
  have decoded := decodeBlob_compiled (l := plain 1) rfl (plain_version 1) (plain_reference 1)
    Patch.Table.builtin_within parse_answer (by decide) (by decide) compiled none
  have runs (s : State) : ∃ id t, ((plain 1).run none (.bytes blob)).run s = (.ok id, t) := by
    have yields := run_yields (l := plain 1) (m := {}) rfl none (.bytes blob) s
    rw [interpret, interpretBlob_eq_ok.2 ⟨_, [], decoded, rfl, rfl⟩] at yields
    cases yields with
    | makes _ run => exact ⟨_, _, run⟩
  obtain ⟨id, t, first⟩ := runs {}
  obtain ⟨id', v, second⟩ := runs t
  obtain ⟨_, _, apart⟩ := run_isolated (plain 1) {}
  exact ⟨_, id, t, id', v, compiled, first, second,
    apart _ _ _ _ first _ _ _ _ _ (fun _ _ => rfl) second⟩

end Loader

end CodeCache
