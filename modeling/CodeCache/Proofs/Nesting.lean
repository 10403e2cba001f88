import CodeCache.Proofs.Failures
import CodeCache.Proofs.Refinement

/-! # Nested loads

A blob at a path is loaded while the blobs that import it are being loaded, whose paths form a
chain. Loading is a recursion from chain to chain. With files in memory a chain holds different
paths of files only, so that the recursion ends, and what it says does not depend on any bound. -/

namespace CodeCache

namespace Memory

variable {m : Memory} {chain : List Path} {p : Path} {content : Bytes}

structure Chain (m : Memory) (chain : List Path) : Prop where
  different : chain.Pairwise fun p q => p.same q = false
  present : ∀ p ∈ chain, (m.get? p).isSome = true

instance (m : Memory) (chain : List Path) : Decidable (m.Chain chain) :=
  decidable_of_iff
    ((chain.Pairwise fun p q => p.same q = false) ∧ ∀ p ∈ chain, (m.get? p).isSome = true)
    ⟨fun h => ⟨h.1, h.2⟩, fun h => ⟨h.different, h.present⟩⟩

theorem Chain.nil : m.Chain [] := by
  constructor
  · exact .nil
  · intro p member
    cases member

theorem Chain.snoc (h : m.Chain chain) (found : m.get? p = some content)
    (fresh : chain.any (·.same p) = false) : m.Chain (chain ++ [p]) := by
  constructor
  · refine List.pairwise_append.2 ⟨h.different, List.pairwise_singleton _ p, ?_⟩
    intro q hq r hr
    rw [List.mem_singleton.1 hr]
    exact Bool.eq_false_iff.2 (List.any_eq_false.1 fresh q hq)
  · intro q hq
    rcases List.mem_append.1 hq with old | new
    · exact h.present q old
    · rw [List.mem_singleton.1 new, found]
      rfl

/-- What holds of a chain and of a path that it may be extended by. -/
theorem Chain.of_snoc (h : m.Chain (chain ++ [p])) :
    m.Chain chain ∧ chain.any (·.same p) = false ∧ (m.get? p).isSome = true := by
  obtain ⟨before, _, apart⟩ := List.pairwise_append.1 h.different
  refine ⟨⟨before, fun q hq => h.present q (List.mem_append_left _ hq)⟩, ?_, ?_⟩
  · rw [List.any_eq_false]
    intro q hq
    exact Bool.eq_false_iff.1 (apart q hq p (List.mem_singleton_self p))
  · exact h.present p (List.mem_append_right _ (List.mem_singleton_self p))

theorem Chain.unvisited_add_length_le (h : m.Chain chain) :
    m.unvisited chain + chain.length ≤ m.files.length := by
  induction chain using List.reverseRecOn with
  | nil => exact List.countP_le_length
  | append_singleton chain p ih =>
    obtain ⟨before, fresh, present⟩ := h.of_snoc
    obtain ⟨content, found⟩ := Option.isSome_iff_exists.1 present
    have fewer := unvisited_lt found fresh
    have bound := ih before
    rw [List.length_append, List.length_singleton]
    omega

theorem Chain.length_le (h : m.Chain chain) : chain.length ≤ m.files.length :=
  Nat.le_trans (Nat.le_add_left _ _) h.unvisited_add_length_le

end Memory

inductive LoadError.OutOfDepth : LoadError → Prop where
  | link : OutOfDepth (.link .tooDeep)
  | evaluation : OutOfDepth (.evaluation .tooDeep)

namespace Loader

variable {l : Loader} {m : Memory} {chain : List Path}

abbrev Nested := List Path → Option String → Path → Action ModuleId

/-- Loads the blob at a path while `importers` are being loaded; `nested` loads the blobs that it
imports. -/
def loadPath (l : Loader) (nested : Nested) : Nested := fun importers context p =>
  if importers.any (·.same p) then throw (.link (.importCycle (importers ++ [p])))
  else do
    let blob ← l.readBlob p
    l.runBlob (l.resolveImport (nested (importers ++ [p]))) (some p) context blob

def runNested (l : Loader) : Nested := l.runPathWithin l.storage.pathBound

/-- A run whose loads from paths are left to `nested`. -/
def runWith (l : Loader) (nested : Nested) (context : Option String) : BlobOrigin → Action ModuleId
  | .bytes blob => l.runBlob (l.resolveImport (nested [])) none context blob
  | .path p => nested [] context p

/-- Loads like `runNested`, but leaves to `other` what is nested deeper than the bound, and what is
nested in a chain that does not consist of different paths of files. -/
def runGuarded (l : Loader) (m : Memory) (other : Nested) : (depth : Nat) → Nested
  | 0 => other
  | depth + 1 => fun importers =>
    if m.Chain importers then l.loadPath (l.runGuarded m other depth) importers
    else other importers

theorem runWith_runNested (l : Loader) : l.runWith l.runNested = l.run := by
  funext context origin
  cases origin <;> rfl

theorem runPathWithin_succ (l : Loader) (depth : Nat) :
    l.runPathWithin (depth + 1) = l.loadPath (l.runPathWithin depth) := by
  funext importers context p
  rw [runPathWithin, loadPath]
  by_cases closed : importers.any (·.same p) = true
  · rw [if_pos closed, if_pos closed]
    rfl
  · rw [if_neg closed, if_neg closed]

/-- A load uses what its imports come to only where the chain goes on with a new path of a file. -/
theorem loadPath_congr (hm : l.storage = .memory m) {f g : Nested}
    (same : ∀ p content, m.get? p = some content → chain.any (·.same p) = false →
      f (chain ++ [p]) = g (chain ++ [p])) : l.loadPath f chain = l.loadPath g chain := by
  funext context p
  rw [loadPath, loadPath]
  by_cases closed : chain.any (·.same p) = true
  · rw [if_pos closed, if_pos closed]
  rw [if_neg closed, if_neg closed]
  cases found : m.get? p with
  | none =>
    rw [readBlob_of_missing hm found, Action.throw_bind, Action.throw_bind]
  | some content => rw [same p content found (Bool.eq_false_iff.2 closed)]

/-- By induction on the depth, which exceeds the number of files that the chain has not visited. -/
theorem runPathWithin_congr (hm : l.storage = .memory m) {depth depth' : Nat}
    (deep : m.unvisited chain < depth) (deep' : m.unvisited chain < depth') :
    l.runPathWithin depth chain = l.runPathWithin depth' chain := by
  induction depth generalizing depth' chain with
  | zero => exact absurd deep (Nat.not_lt_zero _)
  | succ depth ih =>
    obtain ⟨depth', rfl⟩ := Nat.exists_eq_add_one_of_ne_zero (Nat.ne_zero_of_lt deep')
    rw [runPathWithin_succ, runPathWithin_succ]
    apply loadPath_congr hm
    intro p content found fresh
    have fewer := Memory.unvisited_lt found fresh
    exact ih (by omega) (by omega)

/-- The recursion of nested loads, without a bound. -/
theorem runNested_eq (hm : l.storage = .memory m) : l.runNested = l.loadPath l.runNested := by
  funext chain
  have bound := unvisited_lt_pathBound hm chain
  rw [runNested, ← runPathWithin_succ]
  exact runPathWithin_congr hm bound (Nat.lt_succ_of_lt bound)

/-- By induction on the depth: where it comes to nothing, the chain would hold more paths than there
are files. -/
theorem runGuarded_eq (hm : l.storage = .memory m) {nested : Nested}
    (solves : nested = l.loadPath nested) (other : Nested) {depth : Nat} (h : m.Chain chain)
    (deep : m.files.length < depth + chain.length) :
    l.runGuarded m other depth chain = nested chain := by
  induction depth generalizing chain with
  | zero =>
    have := h.length_le
    omega
  | succ depth ih =>
    have step : l.runGuarded m other (depth + 1) chain =
        l.loadPath (l.runGuarded m other depth) chain := if_pos h
    have next : l.loadPath nested chain = nested chain := (congrFun solves chain).symm
    rw [step, ← next]
    apply loadPath_congr hm
    intro p content found fresh
    refine ih (h.snoc found fresh) ?_
    rw [List.length_append, List.length_singleton]
    omega

theorem Fails.of_outOfDepth {p : Path} {e : LoadError} (h : l.Fails m chain p e)
    (deep : e.OutOfDepth) : ∃ specifier, l.packages.answer specifier = .error e := by
  induction h with
  | cycle | missing => cases deep
  | bytes refused => cases refused <;> cases deep
  | body failed => cases failed <;> cases deep
  | package _ answer => exact ⟨_, answer⟩
  | nested _ _ _ _ ih => exact ih deep

theorem interpret_of_outOfDepth {globals : Scope} {origin : BlobOrigin} {e : LoadError}
    (h : l.interpret m globals origin = .error e) (deep : e.OutOfDepth) :
    ∃ specifier, l.packages.answer specifier = .error e := by
  cases origin with
  | path p => exact (interpretPath_fails l m globals [] p e h).of_outOfDepth deep
  | bytes blob =>
    rcases interpretBlob_error h with bytes | body | ⟨_, _, specifier, _, failed⟩
    · cases bytes <;> cases deep
    · cases body <;> cases deep
    rw [importExports] at failed
    split at failed
    · exact (interpretPath_fails l m globals [] _ e failed).of_outOfDepth deep
    · exact ⟨specifier, map_eq_error failed⟩

theorem run_error_iff (hm : l.storage = .memory m) {context : Option String} {origin : BlobOrigin}
    {s : State} {e : LoadError} :
    ((l.run context origin).run s).1 = .error e ↔
      l.interpret m (s.globals context) origin = .error e := by
  have yields := run_yields hm context origin s
  generalize l.interpret m (s.globals context) origin = outcome at yields ⊢
  cases yields with
  | fails _ run => simp [run]
  | makes _ run => simp [run]

theorem run_ok_iff (hm : l.storage = .memory m) {context : Option String} {origin : BlobOrigin}
    {s : State} :
    (∃ id, ((l.run context origin).run s).1 = .ok id) ↔
      ∃ exports, l.interpret m (s.globals context) origin = .ok exports := by
  have yields := run_yields hm context origin s
  generalize l.interpret m (s.globals context) origin = outcome at yields ⊢
  cases yields with
  | fails _ run => simp [run]
  | makes _ run => simp [run]

theorem runWith_congr {f g : Nested} (same : f [] = g []) : l.runWith f = l.runWith g := by
  funext context origin
  cases origin with
  | bytes blob => rw [runWith, runWith, same]
  | path p => exact congrFun (congrFun same context) p

theorem runWith_guarded (hm : l.storage = .memory m) {nested : Nested}
    (solves : nested = l.loadPath nested) (other : Nested) {depth : Nat}
    (deep : m.files.length + 1 ≤ depth) :
    l.runWith (l.runGuarded m other depth) = l.runWith nested :=
  runWith_congr (runGuarded_eq hm solves other .nil (by rwa [List.length_nil]))

/-- Every run ends with an outcome of its own: only a package can answer with the error of a bound.
A run is made from a solution of the recursion of nested loads, which has no bound, and every
solution makes the same runs. Whatever would be done deeper than there are files, or in a chain that
does not consist of different paths of files, plays no part. -/
theorem run_nested {m : Memory} (hm : l.storage = .memory m) :
    l.runNested = l.loadPath l.runNested ∧
      (∀ nested : Nested, nested = l.loadPath nested → l.runWith nested = l.run) ∧
      (∀ (other : Nested) (depth : Nat), m.files.length + 1 ≤ depth →
        l.runWith (l.runGuarded m other depth) = l.run) ∧
      (∀ chain, m.Chain chain → chain.length ≤ m.files.length) ∧
      ∀ context origin s, ∃ outcome t, (l.run context origin).run s = (outcome, t) ∧
        ∀ e, outcome = .error e → e.OutOfDepth →
          ∃ specifier, l.packages.answer specifier = .error e := by
  have solves := runNested_eq hm
  have guarded (other : Nested) {depth : Nat} (deep : m.files.length + 1 ≤ depth) :
      l.runWith (l.runGuarded m other depth) = l.run := by
    rw [runWith_guarded hm solves other deep, runWith_runNested]
  refine ⟨solves, ?_, fun other depth => guarded other, fun chain => Memory.Chain.length_le, ?_⟩
  · intro nested solves'
    rw [← runWith_guarded hm solves' nested (Nat.le_refl _)]
    exact guarded nested (Nat.le_refl _)
  · intro context origin s
    refine ⟨_, _, rfl, ?_⟩
    intro e failed deep
    exact interpret_of_outOfDepth (run_error_iff hm |>.1 failed) deep

def selfImport : Script := { imports := [{ specifier := "a.jsc", bindings := [] }] }

theorem parse_selfImport : Script.parse "import \"a.jsc\";" = .ok selfImport := by
  cbv

def loop : Memory where
  files := [(⟨"a.jsc"⟩,
    Blob.encode selfImport (Text.units16 "import \"a.jsc\";") (plain 1).build.fingerprint)]

def looping : Loader := { plain 1 with storage := .memory loop }

/-- One load within another is as deep as the loads of a file go that imports itself. -/
theorem run_looping :
    looping.storage = .memory loop ∧
      looping.runWith (looping.runGuarded loop (fun _ _ _ => throw .configuration) 2) =
        looping.run := by
  refine ⟨rfl, ?_⟩
  obtain ⟨_, _, guarded, _⟩ := run_nested (l := looping) (m := loop) rfl
  exact guarded _ 2 (Nat.le_refl 2)

end Loader

end CodeCache
