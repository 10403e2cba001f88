import CodeCache.Proofs.CompiledBlobs
import CodeCache.Proofs.Packages

/-! # A pure interpreter of blobs

What a blob in memory exports, by recursion over its imports and without any engine state. The paths
that are being read form a chain, and each of them names a file that no earlier one names, so that
the recursion ends. -/

namespace CodeCache

namespace Memory

/-- The number of files that no path of the chain names. -/
def unvisited (m : Memory) (chain : List Path) : Nat :=
  m.files.countP fun f => !chain.any (·.same f.1)

theorem unvisited_le (chain : List Path) (p : Path) (files : List (Path × Bytes)) :
    files.countP (fun f => !(chain ++ [p]).any (·.same f.1)) ≤
      files.countP fun f => !chain.any (·.same f.1) := by
  apply List.countP_mono_left
  intro f _ counted
  simp only [List.any_append, Bool.not_or, Bool.and_eq_true] at counted
  exact counted.1

theorem unvisited_lt {m : Memory} {chain : List Path} {p : Path} {content : Bytes}
    (found : m.get? p = some content) (fresh : chain.any (·.same p) = false) :
    m.unvisited (chain ++ [p]) < m.unvisited chain := by
  obtain ⟨f, first, _⟩ := Option.map_eq_some_iff.1 found
  have same : f.1.same p = true := by simpa using List.find?_some first
  obtain ⟨before, after, files⟩ := List.mem_iff_append.1 (List.mem_of_find?_eq_some first)
  have congr (q : Path) : q.same f.1 = q.same p := by
    simp only [Path.same, decide_eq_true_eq] at same ⊢
    rw [same]
  have counted : chain.any (·.same f.1) = false := by
    simp only [congr]
    exact fresh
  have skipped : (chain ++ [p]).any (·.same f.1) = true := by
    simp [congr, Path.same_refl]
  have low := unvisited_le chain p before
  have high := unvisited_le chain p after
  rw [unvisited, unvisited, files, List.countP_append, List.countP_append, List.countP_cons,
    List.countP_cons, counted, skipped]
  simp only [Bool.not_true, Bool.not_false, if_true]
  simp only [Bool.false_eq_true, if_false]
  omega

end Memory

namespace Loader

/-- The bound on the depth is above the number of files that are left. -/
theorem unvisited_lt_pathBound {l : Loader} {m : Memory} (hm : l.storage = .memory m)
    (chain : List Path) : m.unvisited chain < l.storage.pathBound := by
  rw [hm, Storage.pathBound]
  exact Nat.lt_of_le_of_lt List.countP_le_length (by omega)

def decodeBlob (l : Loader) (origin : Option Path) (blob : Bytes) : Except LoadError Script :=
  match Version.parse? l.build.version with
  | none => .error (.version l.build.version)
  | some v =>
    match l.build.compile l.config.referenceSource with
    | .error e => .error (.compile e)
    | .ok reference =>
      let blob := l.patched v reference blob
      match Placeholder.ofBlob blob with
      | .error e => .error (.header e)
      | .ok p =>
        match Blob.decode blob p.length l.build.fingerprint l.build.checkedOffsets with
        | .ok script => .ok script
        | .error _ => .error (.cacheRejected origin)

section

variable {l : Loader} {version : String} {number : UInt64} {v : Version} {reference : Bytes}
  {source : String} {script : Script} (hb : l.build = .ofVersion version number)
  (hv : Version.parse? l.build.version = some v)
  (hr : l.build.compile l.config.referenceSource = .ok reference)
  (within : l.config.table.Within 12 24) (parsed : Script.parse source = .ok script)
  (notOne : Text.units16 source ≠ 1)
  (small : Text.units16 source ≤ Header.maxSourceLength.toNat)

include hb hv hr within parsed notOne small

theorem decodeBlob_of_agrees {f : Blob.Fingerprint} (agrees : l.Agrees v f)
    (origin : Option Path) :
    l.decodeBlob origin (Blob.encode script (Text.units16 source) f) = .ok script := by
  obtain ⟨p, placeholder, _, decoded⟩ := decode_patched hb hr within parsed notOne small agrees
  simp only [decodeBlob, hv, hr, placeholder, decoded]

theorem decodeBlob_compiled {blob : Bytes} (compiled : l.build.compile source = .ok blob)
    (origin : Option Path) : l.decodeBlob origin blob = .ok script := by
  cases (l.build.compile_eq parsed).symm.trans compiled
  exact decodeBlob_of_agrees hb hv hr within parsed notOne small (agrees_own l v) origin

end

theorem decodeBlob_of_default {l : Loader} {version : String} {number : UInt64} {v : Version}
    {source : String} {script : Script} (hb : l.build = .ofVersion version number)
    (hv : Version.parse? version = some v) (hc : l.config = {})
    (parsed : Script.parse source = .ok script) (notOne : Text.units16 source ≠ 1)
    (small : Text.units16 source ≤ Header.maxSourceLength.toNat) (f : Blob.Fingerprint)
    (origin : Option Path) :
    l.decodeBlob origin (Blob.encode script (Text.units16 source) f) = .ok script := by
  have version : Version.parse? l.build.version = some v := by
    rw [hb]
    exact hv
  have reference := Build.compile_eq parse_reference l.build
  rw [← hc] at reference
  have builtin : l.config.table = .builtin := by
    rw [hc]
    rfl
  have within : l.config.table.Within 12 24 := by
    rw [builtin]
    exact Patch.Table.builtin_within
  exact decodeBlob_of_agrees hb version reference within parsed notOne small
    (agrees_of_builtin hb version builtin f) origin

theorem decodeBlob_plain {l : Loader} {source : String} {script : Script}
    (hb : l.build = (plain 1).build) (hc : l.config = {})
    (parsed : Script.parse source = .ok script) (notOne : Text.units16 source ≠ 1)
    (small : Text.units16 source ≤ Header.maxSourceLength.toNat) (f : Blob.Fingerprint)
    (origin : Option Path) :
    l.decodeBlob origin (Blob.encode script (Text.units16 source) f) = .ok script :=
  decodeBlob_of_default hb (plain_version 1) hc parsed notOne small f origin

/-- What an import exports, given what the blobs at paths export. -/
def importExports (l : Loader) (pathExports : Path → Except LoadError Fields) (specifier : String) :
    Except LoadError Fields :=
  if l.config.isBytecode specifier then pathExports (l.config.blobPath specifier)
  else (l.packages.answer specifier).map Package.exports

def gather (exports : String → Except LoadError Fields) :
    List String → Except LoadError (Entries Fields)
  | [] => .ok []
  | specifier :: rest => do
    let found ← exports specifier
    return (specifier, found) :: (← gather exports rest)

def gathered (found : Entries Fields) (specifier : String) : Except LoadError Fields :=
  match Entries.get? found specifier with
  | some exports => .ok exports
  | none => .error (.link (.unlinkedImport specifier))

def interpretScript (l : Loader) (pathExports : Path → Except LoadError Fields) (globals : Scope)
    (script : Script) : Except LoadError Fields := do
  let found ← gather (l.importExports pathExports) script.specifiers
  script.run globals (gathered found)

def interpretBlob (l : Loader) (pathExports : Path → Except LoadError Fields) (globals : Scope)
    (origin : Option Path) (blob : Bytes) : Except LoadError Fields := do
  l.interpretScript pathExports globals (← l.decodeBlob origin blob)

theorem gather_eq_ok {exports : String → Except LoadError Fields} {specifiers : List String}
    {found : Entries Fields} (h : gather exports specifiers = .ok found) :
    ∀ specifier ∈ specifiers, ∃ offered, exports specifier = .ok offered := by
  induction specifiers generalizing found with
  | nil =>
    intro specifier member
    cases member
  | cons first rest ih =>
    rw [gather] at h
    obtain ⟨offered, here, h⟩ := bind_eq_ok.1 h
    obtain ⟨others, later, _⟩ := bind_eq_ok.1 h
    intro specifier member
    rcases List.mem_cons.1 member with rfl | member
    · exact ⟨offered, here⟩
    · exact ih later specifier member

theorem interpretBlob_eq_ok {l : Loader} {pathExports : Path → Except LoadError Fields}
    {globals : Scope} {origin : Option Path} {blob : Bytes} {exports : Fields} :
    l.interpretBlob pathExports globals origin blob = .ok exports ↔
      ∃ script found, l.decodeBlob origin blob = .ok script ∧
        gather (l.importExports pathExports) script.specifiers = .ok found ∧
        script.run globals (gathered found) = .ok exports := by
  constructor
  · intro h
    obtain ⟨script, decoded, h⟩ := bind_eq_ok.1 h
    obtain ⟨found, gathers, ran⟩ := bind_eq_ok.1 h
    exact ⟨script, found, decoded, gathers, ran⟩
  · rintro ⟨script, found, decoded, gathers, ran⟩
    exact bind_eq_ok.2 ⟨script, decoded, bind_eq_ok.2 ⟨found, gathers, ran⟩⟩

/-- What the blob at a path exports, when it is imported through the paths of a chain. -/
def interpretPath (l : Loader) (m : Memory) (globals : Scope) (chain : List Path) (p : Path) :
    Except LoadError Fields :=
  if _cycle : chain.any (·.same p) then .error (.link (.importCycle (chain ++ [p])))
  else
    match _file : m.get? p with
    | none => .error (.storage (.fileNotFound p))
    | some blob =>
      l.interpretBlob (fun next => l.interpretPath m globals (chain ++ [p]) next) globals (some p)
        blob
termination_by m.unvisited chain
decreasing_by exact Memory.unvisited_lt _file (by simpa using _cycle)

theorem interpretPath_of_file {l : Loader} {m : Memory} {chain : List Path} {p : Path}
    {blob : Bytes} (fresh : chain.any (·.same p) = false) (file : m.get? p = some blob)
    (globals : Scope) :
    l.interpretPath m globals chain p =
      l.interpretBlob (l.interpretPath m globals (chain ++ [p])) globals (some p) blob := by
  rw [interpretPath, dif_neg (Bool.eq_false_iff.1 fresh)]
  split
  · rename_i missing
    cases file.symm.trans missing
  · rename_i blob' found
    cases file.symm.trans found
    rfl

theorem interpretPath_eq_ok {l : Loader} {m : Memory} {globals : Scope} {chain : List Path}
    {p : Path} {exports : Fields} :
    l.interpretPath m globals chain p = .ok exports ↔
      chain.any (·.same p) = false ∧ ∃ blob, m.get? p = some blob ∧
        l.interpretBlob (l.interpretPath m globals (chain ++ [p])) globals (some p) blob =
          .ok exports := by
  rw [interpretPath]
  by_cases cycle : chain.any (·.same p) = true
  · simp [cycle]
  rw [dif_neg cycle]
  split
  · rename_i missing
    simp [missing]
  · rename_i blob file
    simp [file, Bool.eq_false_iff.2 cycle]

/-- What a blob exports that imports files in memory. -/
def interpret (l : Loader) (m : Memory) (globals : Scope) :
    BlobOrigin → Except LoadError Fields
  | .bytes blob => l.interpretBlob (l.interpretPath m globals []) globals none blob
  | .path p => l.interpretPath m globals [] p

end Loader

end CodeCache
