import CodeCache.Proofs.Nesting
import Mathlib.Data.List.Chain
import Mathlib.Logic.Relation

/-! # Cycles of imports

The blobs in memory form a graph: from a file to the files that its script imports. The chain of a
run is a path in this graph. A run that succeeds has followed every path from where it started, and
met no path twice on any of them; the cycle that a run fails with is one of the graph. -/

namespace CodeCache

open Relation (ReflTransGen TransGen)

namespace Memory

theorem get?_congr {p q : Path} (m : Memory) (same : p.same q = true) : m.get? p = m.get? q := by
  have components : p.components = q.components := by simpa [Path.same] using same
  simp only [get?, Path.same, components]

end Memory

namespace Loader

variable {l : Loader} {m : Memory} {globals : Scope} {chain : List Path} {p q r : Path}

def ImportsBlob (l : Loader) (m : Memory) (p q : Path) : Prop :=
  ∃ specifier, l.HasImport m p specifier ∧ l.config.isBytecode specifier = true ∧
    (l.config.blobPath specifier).same q = true

theorem decodeBlob_origin {origin : Option Path} {blob : Bytes} {script : Script}
    (h : l.decodeBlob origin blob = .ok script) (origin' : Option Path) :
    l.decodeBlob origin' blob = .ok script := by
  unfold decodeBlob at h ⊢
  split at h
  · cases h
  split at h
  · cases h
  dsimp only at h ⊢
  split at h
  · cases h
  split at h
  · exact h
  · cases h

/-- What a file imports does not depend on the spelling of its path. -/
theorem HasImport.congr {specifier : String} (h : l.HasImport m p specifier)
    (same : q.same p = true) : l.HasImport m q specifier := by
  obtain ⟨blob, script, file, decoded, member⟩ := h
  exact ⟨blob, script, (m.get?_congr same).trans file, decodeBlob_origin decoded _, member⟩

theorem ImportsBlob.congr_right (h : l.ImportsBlob m p q) (same : r.same q = true) :
    l.ImportsBlob m p r := by
  obtain ⟨specifier, imported, bytecode, next⟩ := h
  refine ⟨specifier, imported, bytecode, ?_⟩
  simp only [Path.same, decide_eq_true_eq] at same next ⊢
  exact next.trans same.symm

def AcyclicFrom (l : Loader) (m : Memory) (p : Path) : Prop :=
  ∀ q, ReflTransGen (l.ImportsBlob m) p q → ¬TransGen (l.ImportsBlob m) q q

def Loads (l : Loader) (m : Memory) (globals : Scope) (chain : List Path) (p : Path) : Prop :=
  ∃ exports, l.interpretPath m globals chain p = .ok exports

theorem Loads.fresh (h : l.Loads m globals chain p) : chain.any (·.same p) = false := by
  obtain ⟨exports, loaded⟩ := h
  exact (interpretPath_eq_ok.1 loaded).1

theorem Loads.next (h : l.Loads m globals chain p) (edge : l.ImportsBlob m p q) :
    ∃ q', q'.same q = true ∧ l.Loads m globals (chain ++ [p]) q' := by
  obtain ⟨specifier, ⟨blob, script, file, decoded, member⟩, bytecode, same⟩ := edge
  obtain ⟨exports, loaded⟩ := h
  obtain ⟨_, blob', file', loaded⟩ := interpretPath_eq_ok.1 loaded
  cases file.symm.trans file'
  obtain ⟨script', found, decoded', gathers, _⟩ := interpretBlob_eq_ok.1 loaded
  cases decoded.symm.trans decoded'
  obtain ⟨offered, behind⟩ := gather_eq_ok gathers specifier member
  rw [importExports, if_pos bytecode] at behind
  exact ⟨_, same, offered, behind⟩

theorem Loads.reaches (reach : ReflTransGen (l.ImportsBlob m) p q) :
    ∀ {chain : List Path} {p' : Path}, p'.same p = true → l.Loads m globals chain p' →
      ∃ chain' q', q'.same q = true ∧ chain ⊆ chain' ∧ l.Loads m globals chain' q' := by
  induction reach using ReflTransGen.head_induction_on with
  | refl =>
    intro chain p' same loads
    exact ⟨chain, p', same, fun _ => id, loads⟩
  | head edge _ ih =>
    intro chain p' same loads
    obtain ⟨specifier, imported, bytecode, next⟩ := edge
    obtain ⟨r', same', loads'⟩ := loads.next ⟨specifier, imported.congr same, bytecode, next⟩
    obtain ⟨chain', q', there, grown, loaded⟩ := ih same' loads'
    refine ⟨chain', q', there, ?_, loaded⟩
    intro x member
    exact grown (List.mem_append_left _ member)

/-- Where a blob was loaded no cycle is reached: following one would lead back into the chain. -/
theorem Loads.acyclic (h : l.Loads m globals chain p) : l.AcyclicFrom m p := by
  intro q reach cycle
  obtain ⟨chain', q', same, _, loads⟩ := Loads.reaches reach p.same_refl h
  obtain ⟨r, ⟨specifier, imported, bytecode, next⟩, back⟩ := TransGen.head'_iff.1 cycle
  obtain ⟨r', same', loads'⟩ := loads.next ⟨specifier, imported.congr same, bytecode, next⟩
  obtain ⟨chain'', q'', same'', grown, loads''⟩ := Loads.reaches back same' loads'
  have visited : q' ∈ chain'' := grown (List.mem_append_right _ (List.mem_singleton_self q'))
  have again : q'.same q'' = true := by
    simp only [Path.same, decide_eq_true_eq] at same same'' ⊢
    exact same.trans same''.symm
  exact List.any_eq_false.1 loads''.fresh q' visited again

/-- The paths and then the last one are a way through the graph that comes back for the first time
at its end. -/
structure ClosesCycle (l : Loader) (m : Memory) (paths : List Path) (last : Path) : Prop where
  steps : (paths ++ [last]).IsChain (l.ImportsBlob m)
  different : paths.Pairwise fun p q => p.same q = false
  closes : ∃ p ∈ paths, p.same last = true

/-- The cycle that a load fails with goes on from the chain, unless a package answers with it. -/
theorem Fails.cycle_chain {e : LoadError} {found : List Path} (h : l.Fails m chain p e)
    (error : e = .link (.importCycle found))
    (steps : (chain ++ [p]).IsChain (l.ImportsBlob m))
    (different : chain.Pairwise fun p q => p.same q = false) :
    (∃ specifier, l.packages.answer specifier = .error e) ∨
      ∃ paths last, found = paths ++ [last] ∧ chain ++ [p] <+: found ∧
        l.ClosesCycle m paths last := by
  induction h with
  | @cycle chain p closed =>
    cases error
    exact .inr ⟨chain, p, rfl, List.prefix_refl _, steps, different, List.any_eq_true.1 closed⟩
  | missing => cases error
  | bytes refused => cases error ▸ refused
  | body failed => cases error ▸ failed
  | package _ answer => exact .inl ⟨_, answer⟩
  | @nested chain p specifier e fresh imported bytecode _ ih =>
    have edge : l.ImportsBlob m p (l.config.blobPath specifier) :=
      ⟨specifier, imported, bytecode, Path.same_refl _⟩
    have further : (chain ++ [p] ++ [l.config.blobPath specifier]).IsChain (l.ImportsBlob m) := by
      refine List.isChain_append.2 ⟨steps, .singleton _, ?_⟩
      simpa using edge
    have apart : (chain ++ [p]).Pairwise fun p q => p.same q = false := by
      refine List.pairwise_append.2 ⟨different, List.pairwise_singleton _ p, ?_⟩
      intro q hq r hr
      rw [List.mem_singleton.1 hr]
      exact Bool.eq_false_iff.2 (List.any_eq_false.1 fresh q hq)
    rcases ih error further apart with answered | ⟨paths, last, found, longer, closes⟩
    · exact .inl answered
    · exact .inr ⟨paths, last, found, (List.prefix_append _ _).trans longer, closes⟩

theorem transGen_of_isChain {α : Type} {step : α → α → Prop} {a b : α} {xs : List α}
    (h : (a :: (xs ++ [b])).IsChain step) : TransGen step a b := by
  induction xs generalizing a with
  | nil => exact .single (List.isChain_pair.1 h)
  | cons x xs ih =>
    obtain ⟨first, rest⟩ := List.isChain_cons_cons.1 h
    exact .head first (ih rest)

theorem ClosesCycle.cyclic {paths : List Path} {last : Path} (h : l.ClosesCycle m paths last)
    (starts : (paths ++ [last]).head? = some p) : ¬l.AcyclicFrom m p := by
  obtain ⟨q, member, same⟩ := h.closes
  obtain ⟨before, after, rfl⟩ := List.append_of_mem member
  have steps := h.steps
  rw [List.append_assoc, List.cons_append] at steps starts
  obtain ⟨toward, around, join⟩ := List.isChain_append.1 steps
  have cycle : TransGen (l.ImportsBlob m) q q := by
    obtain ⟨r, path, back⟩ := TransGen.tail'_iff.1 (transGen_of_isChain around)
    exact .tail' path (back.congr_right same)
  intro acyclic
  cases before with
  | nil =>
    cases starts
    exact acyclic p .refl cycle
  | cons first before =>
    cases starts
    have way : ((p :: before) ++ [q]).IsChain (l.ImportsBlob m) :=
      List.isChain_append.2 ⟨toward, .singleton q, by simpa using join⟩
    exact acyclic q (transGen_of_isChain way).to_reflTransGen cycle

/-- Cycles of imports are detected exactly. A run succeeds only where none is reached, and where a
run finds one, the paths it names are a way from its start into a cycle. -/
theorem run_path_cycles {m : Memory} (hm : l.storage = .memory m) (context : Option String)
    (p : Path) (s : State) :
    let outcome := ((l.run context (.path p)).run s).1
    (∀ id, outcome = .ok id → l.AcyclicFrom m p) ∧
      (∀ found, outcome = .error (.link (.importCycle found)) →
        (∃ specifier, l.packages.answer specifier = .error (.link (.importCycle found))) ∨
          ∃ paths last, found = paths ++ [last] ∧ found.head? = some p ∧
            l.ClosesCycle m paths last) ∧
      (l.AcyclicFrom m p → ∀ found, outcome = .error (.link (.importCycle found)) →
        ∃ specifier, l.packages.answer specifier = .error (.link (.importCycle found))) := by
  intro outcome
  have cycle (found : List Path) (failed : outcome = .error (.link (.importCycle found))) :
      (∃ specifier, l.packages.answer specifier = .error (.link (.importCycle found))) ∨
        ∃ paths last, found = paths ++ [last] ∧ found.head? = some p ∧
          l.ClosesCycle m paths last := by
    have fails := interpretPath_fails l m (s.globals context) [] p _ (run_error_iff hm |>.1 failed)
    rcases fails.cycle_chain rfl (.singleton p) .nil with answered | ⟨paths, last, same, first, way⟩
    · exact .inl answered
    · obtain ⟨rest, rfl⟩ := first
      exact .inr ⟨paths, last, same, rfl, way⟩
  refine ⟨?_, cycle, ?_⟩
  · intro id ok
    exact Loads.acyclic (run_ok_iff hm |>.1 ⟨id, ok⟩)
  · intro acyclic found failed
    rcases cycle found failed with answered | ⟨paths, last, rfl, starts, way⟩
    · exact answered
    · exact absurd acyclic (way.cyclic starts)

theorem interpretPath_loop (globals : Scope) :
    looping.interpretPath loop globals [] ⟨"a.jsc"⟩ =
      .error (.link (.importCycle [⟨"a.jsc"⟩, ⟨"a.jsc"⟩])) := by
  have file : loop.get? ⟨"a.jsc"⟩ = some (Blob.encode selfImport
      (Text.units16 "import \"a.jsc\";") (plain 1).build.fingerprint) := by
    simp [Memory.get?, loop, Path.same_refl]
  have again : looping.interpretPath loop globals ([] ++ [⟨"a.jsc"⟩])
      (looping.config.blobPath "a.jsc") =
        .error (.link (.importCycle [⟨"a.jsc"⟩, ⟨"a.jsc"⟩])) := by
    rw [interpretPath, dif_pos (by decide)]
    rfl
  have bytecode : looping.config.isBytecode "a.jsc" = true := by decide
  have decoded := decodeBlob_plain (l := looping) rfl rfl parse_selfImport (by decide) (by decide)
    (plain 1).build.fingerprint (some ⟨"a.jsc"⟩)
  rw [interpretPath_of_file rfl file, interpretBlob, decoded]
  show looping.interpretScript _ globals selfImport = _
  have specifiers : selfImport.specifiers = ["a.jsc"] := by decide
  rw [interpretScript, specifiers, gather, importExports, if_pos bytecode, again]
  rfl

/-- A file that imports itself fails with the way from its path to its path. -/
theorem run_path_loop :
    looping.storage = .memory loop ∧
      ((looping.run none (.path ⟨"a.jsc"⟩)).run {}).1 =
        .error (.link (.importCycle [⟨"a.jsc"⟩, ⟨"a.jsc"⟩])) ∧
      looping.ClosesCycle loop [⟨"a.jsc"⟩] ⟨"a.jsc"⟩ := by
  have outcome : ((looping.run none (.path ⟨"a.jsc"⟩)).run {}).1 =
      .error (.link (.importCycle [⟨"a.jsc"⟩, ⟨"a.jsc"⟩])) :=
    (run_error_iff (l := looping) (m := loop) rfl).2 (interpretPath_loop _)
  refine ⟨rfl, outcome, ?_⟩
  obtain ⟨_, cycle, _⟩ := run_path_cycles (l := looping) (m := loop) rfl none ⟨"a.jsc"⟩ {}
  rcases cycle _ outcome with ⟨specifier, answered⟩ | ⟨paths, last, same, _, way⟩
  · cases answered
  · have ends : [⟨"a.jsc"⟩] ++ [⟨"a.jsc"⟩] = paths ++ [last] := same
    obtain ⟨rfl, others⟩ := List.append_inj' ends rfl
    cases others
    exact way

end Loader

end CodeCache
