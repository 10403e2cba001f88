import CodeCache.Proofs.Accounting
import CodeCache.Proofs.ImportCycles

/-! # Loading below other chains

The chain of importers can only make a load fail. A load that succeeds has met no path of its chain
among the imports it has followed, and it comes to the same below every chain that it does not run
into. In particular a blob gives the same whether it is loaded by its path or by its content: its
path cannot turn up among its own imports. -/

namespace CodeCache

open Relation (ReflTransGen TransGen)

namespace Loader

variable {l : Loader} {m : Memory} {globals : Scope} {chain other : List Path} {p q r : Path}
  {exports : Fields} {specifier : String} {blob : Bytes}

/-- No path of the chain is in the import tree of a path, which begins with the path itself. -/
def Avoids (l : Loader) (m : Memory) (chain : List Path) (p : Path) : Prop :=
  ∀ q ∈ chain, ∀ r, ReflTransGen (l.ImportsBlob m) p r → q.same r = false

theorem Avoids.nil : l.Avoids m [] p := by
  intro q member
  cases member

theorem Avoids.fresh (h : l.Avoids m chain p) : chain.any (·.same p) = false := by
  rw [List.any_eq_false]
  intro q member
  simp [h q member p .refl]

/-- An importer is not in the import tree of what it imports, if that can be loaded. -/
theorem Loads.importer (h : l.Loads m globals chain (l.config.blobPath specifier))
    (imported : l.HasImport m p specifier) (bytecode : l.config.isBytecode specifier = true)
    (reach : ReflTransGen (l.ImportsBlob m) (l.config.blobPath specifier) r) :
    p.same r = false := by
  by_contra same
  rw [Bool.not_eq_false, p.same_comm r] at same
  have back : l.ImportsBlob m r (l.config.blobPath specifier) :=
    ⟨specifier, imported.congr same, bytecode, Path.same_refl _⟩
  exact h.acyclic r reach (.head' back reach)

theorem Avoids.next (h : l.Avoids m other p)
    (loads : l.Loads m globals chain (l.config.blobPath specifier))
    (imported : l.HasImport m p specifier) (bytecode : l.config.isBytecode specifier = true) :
    l.Avoids m (other ++ [p]) (l.config.blobPath specifier) := by
  have edge : l.ImportsBlob m p (l.config.blobPath specifier) :=
    ⟨specifier, imported, bytecode, Path.same_refl _⟩
  intro q member r reach
  rcases List.mem_append.1 member with old | new
  · exact h q old r (.head edge reach)
  · rw [List.mem_singleton.1 new]
    exact loads.importer imported bytecode reach

theorem gather_mono {exports other : String → Except LoadError Fields} {specifiers : List String}
    {found : Entries Fields}
    (h : ∀ specifier ∈ specifiers, ∀ offered, exports specifier = .ok offered →
      other specifier = .ok offered)
    (gathers : gather exports specifiers = .ok found) : gather other specifiers = .ok found := by
  induction specifiers generalizing found with
  | nil => exact gathers
  | cons specifier rest ih =>
    rw [List.forall_mem_cons] at h
    rw [gather] at gathers
    obtain ⟨offered, here, gathers⟩ := bind_eq_ok.1 gathers
    obtain ⟨others, later, gathers⟩ := bind_eq_ok.1 gathers
    cases gathers
    rw [gather, h.1 offered here, ih h.2 later]
    rfl

theorem interpretBlob_mono {pathExports otherPath : Path → Except LoadError Fields}
    {origin : Option Path} (file : m.get? p = some blob)
    (h : ∀ specifier offered, l.HasImport m p specifier → l.config.isBytecode specifier = true →
      pathExports (l.config.blobPath specifier) = .ok offered →
        otherPath (l.config.blobPath specifier) = .ok offered)
    (loaded : l.interpretBlob pathExports globals origin blob = .ok exports)
    (origin' : Option Path) : l.interpretBlob otherPath globals origin' blob = .ok exports := by
  obtain ⟨script, found, decoded, gathers, ran⟩ := interpretBlob_eq_ok.1 loaded
  refine interpretBlob_eq_ok.2 ⟨script, found, decodeBlob_origin decoded origin', ?_, ran⟩
  refine gather_mono ?_ gathers
  intro specifier member offered behind
  have imported : l.HasImport m p specifier :=
    ⟨blob, script, file, decodeBlob_origin decoded (some p), member⟩
  rw [importExports] at behind ⊢
  by_cases bytecode : l.config.isBytecode specifier = true
  · rw [if_pos bytecode] at behind ⊢
    exact h specifier offered imported bytecode behind
  · rw [if_neg bytecode] at behind ⊢
    exact behind

/-- By induction on the files that the chain of the load has not visited: each import is loaded
below a longer chain, and the other chain avoids it too. -/
theorem interpretPath_avoiding (h : l.interpretPath m globals chain p = .ok exports)
    (avoids : l.Avoids m other p) : l.interpretPath m globals other p = .ok exports := by
  induction size : m.unvisited chain using Nat.strong_induction_on
    generalizing chain other p exports with
  | h n ih =>
    obtain ⟨fresh, blob, file, loaded⟩ := interpretPath_eq_ok.1 h
    refine interpretPath_eq_ok.2 ⟨avoids.fresh, blob, file, ?_⟩
    refine interpretBlob_mono file ?_ loaded (some p)
    intro specifier offered imported bytecode behind
    have fewer := Memory.unvisited_lt file fresh
    exact ih _ (size ▸ fewer) behind (avoids.next ⟨offered, behind⟩ imported bytecode) rfl

/-- A file and its content export the same. -/
theorem interpret_path_eq_ok (file : m.get? p = some blob) :
    l.interpret m globals (.path p) = .ok exports ↔
      l.interpret m globals (.bytes blob) = .ok exports := by
  constructor
  · intro h
    obtain ⟨_, blob', file', loaded⟩ := interpretPath_eq_ok.1 h
    cases file.symm.trans file'
    refine interpretBlob_mono file ?_ loaded none
    exact fun _ _ _ _ behind => interpretPath_avoiding behind .nil
  · intro loaded
    refine interpretPath_eq_ok.2 ⟨rfl, blob, file, ?_⟩
    refine interpretBlob_mono file ?_ loaded (some p)
    intro specifier offered imported bytecode behind
    refine interpretPath_avoiding behind ?_
    intro q member r reach
    rw [List.mem_singleton.1 member]
    exact Loads.importer ⟨offered, behind⟩ imported bytecode reach

/-- The exports of the blob at a path that is loaded below a chain. -/
def nestedNamespace (l : Loader) (chain : List Path) (context : Option String) (p : Path) :
    Action Fields := do
  State.namespaceOf (← l.runNested chain context p)

theorem outcome_nestedNamespace (hm : l.storage = .memory m) (chain : List Path)
    (context : Option String) (p : Path) (s : State) :
    ((l.nestedNamespace chain context p).run s).1 =
      l.interpretPath m (s.globals context) chain p := by
  have bound := unvisited_lt_pathBound hm chain
  exact namespace_of_yields (runPathWithin_yields hm context _ chain bound p s)

/-- A path and its bytes can be loaded in the same contexts and to the same namespaces, and the
importers of a blob change nothing about a load that succeeds. The engine states may differ in all
but the globals of the context. -/
theorem run_chains (hm : l.storage = .memory m) (context : Option String) (s t : State)
    (same : s.globals context = t.globals context) :
    (∀ p blob, m.get? p = some blob → ∀ exports,
      ((l.runNamespace context (.path p)).run s).1 = .ok exports ↔
        ((l.runNamespace context (.bytes blob)).run t).1 = .ok exports) ∧
    ∀ chain p exports, ((l.nestedNamespace chain context p).run s).1 = .ok exports →
      ((l.nestedNamespace [] context p).run t).1 = .ok exports ∧
        ∀ other, l.Avoids m other p →
          ((l.nestedNamespace other context p).run t).1 = .ok exports := by
  constructor
  · intro p blob file exports
    rw [outcome_runNamespace hm, outcome_runNamespace hm, same]
    exact interpret_path_eq_ok file
  · intro chain p exports loaded
    rw [outcome_nestedNamespace hm, same] at loaded
    simp only [outcome_nestedNamespace hm]
    exact ⟨interpretPath_avoiding loaded .nil, fun other => interpretPath_avoiding loaded⟩

def shelf : Memory where
  files := (⟨"fetch.jsc"⟩,
    Blob.encode fetchScript (Text.units16 fetch) (plain 1).build.fingerprint) :: stored.files

def browsing : Loader := { fetching with storage := .memory shelf }

theorem get?_shelf : shelf.get? ⟨"fetch.jsc"⟩ =
    some (Blob.encode fetchScript (Text.units16 fetch) (plain 1).build.fingerprint) := by
  simp [Memory.get?, shelf, Path.same_refl]

theorem get?_shelf_answer : shelf.get? ⟨"a.jsc"⟩ =
    some (Blob.encode answerScript (Text.units16 Sample.answer) (plain 1).build.fingerprint) := by
  have other : Path.same ⟨"fetch.jsc"⟩ ⟨"a.jsc"⟩ = false := by decide
  simp [Memory.get?, shelf, stored, Path.same_refl, other]

theorem avoids_answer : browsing.Avoids shelf [⟨"main.jsc"⟩] ⟨"a.jsc"⟩ := by
  have leaf : ∀ q, ¬browsing.ImportsBlob shelf ⟨"a.jsc"⟩ q := by
    rintro q ⟨specifier, ⟨blob, script, file, decoded, member⟩, _⟩
    cases get?_shelf_answer.symm.trans file
    cases (decodeBlob_answer (l := browsing) rfl rfl _ _).symm.trans decoded
    cases member
  intro q member r reach
  rw [List.mem_singleton.1 member]
  rcases ReflTransGen.cases_head reach with rfl | ⟨_, edge, _⟩
  · decide
  · exact absurd edge (leaf _)

/-- The blob that imports another one is loaded by path and by content, and the other one below its
importer, alone and below a path that it does not import. -/
theorem run_chains_shelf :
    browsing.storage = .memory shelf ∧
      ((browsing.runNamespace none (.path ⟨"fetch.jsc"⟩)).run {}).1 = .ok [("default", .int 42)] ∧
      ((browsing.nestedNamespace [⟨"main.jsc"⟩] none ⟨"a.jsc"⟩).run {}).1 =
        .ok [("default", .int 42)] := by
  obtain ⟨bytes, chains⟩ := run_chains (l := browsing) (m := shelf) rfl none {} {} rfl
  refine ⟨rfl, ?_, ?_⟩
  · refine (bytes _ _ get?_shelf _).2 ?_
    rw [outcome_runNamespace (l := browsing) (m := shelf) rfl]
    exact interpret_fetch (l := browsing) rfl rfl rfl get?_shelf_answer _
  · have imported : ((browsing.nestedNamespace [⟨"fetch.jsc"⟩] none ⟨"a.jsc"⟩).run {}).1 =
        .ok [("default", .int 42)] := by
      rw [outcome_nestedNamespace (l := browsing) (m := shelf) rfl]
      exact interpretPath_answer (l := browsing) rfl rfl (by decide) get?_shelf_answer _
    exact (chains _ _ _ imported).2 _ avoids_answer

end Loader

end CodeCache
