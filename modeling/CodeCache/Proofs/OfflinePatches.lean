import CodeCache.Proofs.Accounting

/-! # Patching ahead of time

Blobs that one engine build compiled have the same build words, so that a patch which keeps to these
words takes the same bytes from each of them. All files of a storage may therefore be patched once,
and a loader without recipes then runs over them as the patching loader runs over the original
files, whatever these hold. -/

namespace CodeCache

section

variable {b : Build} {source other : String} {x y : Bytes}

theorem Build.complete_of_compile (h : b.compile source = .ok x) : 24 ≤ x.length := by
  obtain ⟨script, _, rfl⟩ := compile_eq_ok h
  exact (Blob.seals_encode script (Text.units16 source) b.fingerprint).complete

theorem Build.getElem?_of_compile (h : b.compile source = .ok x) {i : Nat} (low : 12 ≤ i)
    (high : i < 24) : x[i]? = b.fingerprint.bytes[i - 12]? := by
  obtain ⟨script, _, rfl⟩ := compile_eq_ok h
  exact Blob.getElem?_encode script _ _ low high

/-- A patch of the build words does not depend on the source that the reference was compiled from.
-/
theorem Patch.Table.patch_congr {t : Table} (within : t.Within 12 24)
    (hx : b.compile source = .ok x) (hy : b.compile other = .ok y) (v : Version) (blob : Bytes) :
    (t.patch v blob x).2 = (t.patch v blob y).2 := by
  apply List.ext_getElem?
  intro i
  rw [getElem?_patch, getElem?_patch]
  by_cases covered : t.Covers v i
  · obtain ⟨low, high⟩ := within.of_covers covered
    have inX : i < x.length := Nat.lt_of_lt_of_le high (Build.complete_of_compile hx)
    have inY : i < y.length := Nat.lt_of_lt_of_le high (Build.complete_of_compile hy)
    rw [Build.getElem?_of_compile hx low high, Build.getElem?_of_compile hy low high]
    simp only [inX, inY]
  · rw [if_neg (fun h => covered h.1), if_neg (fun h => covered h.1)]

end

namespace Action.Alike

open State

section

variable {resolve other : Resolver}
  (alike : ∀ specifier referrer, (resolve specifier referrer).Alike (other specifier referrer))

include alike

theorem linkWithin (depth : Nat) (id : ModuleId) (seen : Seen) :
    (linkWithin resolve depth id seen).Alike (State.linkWithin other depth id seen) := by
  induction depth generalizing id seen with
  | zero => exact of_blind (blind_sequential.throw _)
  | succ depth ih =>
    refine bind (of_blind (blind_elementary.moduleAt id)) fun r => ?_
    cases r.status with
    | unlinked =>
      refine bind (of_blind (blind_elementary.change id (.status _))) fun _ => tryCatch ?_ ?_
      · refine bind (alike_parallel.linkImports alike ih id _ seen) fun found => ?_
        refine bind (of_blind (blind_elementary.change id (.linked _))) fun _ => ?_
        exact of_blind (blind_sequential.pure _)
      · intro e
        refine bind (of_blind (blind_elementary.change id (.status _))) fun _ => ?_
        exact of_blind (blind_sequential.throw e)
    | errored message => exact of_blind (blind_sequential.throw _)
    | _ => exact of_blind (blind_sequential.pure seen)

theorem link (id : ModuleId) : (link resolve id).Alike (State.link other id) := by
  intro s events
  rw [run_link, run_link]
  have linked := bind (linkWithin alike (s.modules.length + 2) id []) fun _ =>
    of_blind (blind_sequential.pure ())
  exact linked { s with events := s.events ++ [.link id] } (events ++ [.link id])

theorem finish (id : ModuleId) : (Loader.finish resolve id).Alike (Loader.finish other id) := by
  refine bind (link alike id) fun _ => bind (of_blind (blind_stepwise.evaluate id)) fun _ => ?_
  exact of_blind (blind_sequential.pure id)

end

end Action.Alike

def Memory.mapContents (f : Bytes → Bytes) (m : Memory) : Memory :=
  ⟨m.files.map fun file => (file.1, f file.2)⟩

theorem Memory.get?_mapContents (f : Bytes → Bytes) (m : Memory) (p : Path) :
    (m.mapContents f).get? p = (m.get? p).map f := by
  simp only [get?, mapContents, List.find?_map, Option.map_map]
  rfl

def BlobOrigin.mapBytes (f : Bytes → Bytes) : BlobOrigin → BlobOrigin
  | bytes blob => bytes (f blob)
  | path p => path p

namespace Loader

/-- The loader that patches nothing and reads the given files. -/
def unpatching (l : Loader) (m : Memory) (referenceSource : String) : Loader :=
  { l with
    storage := .memory m
    config := { l.config with patchRecipes := some [], referenceSource } }

/-- The loader that patches from the blob of another source. -/
def patchingFrom (l : Loader) (referenceSource : String) : Loader :=
  { l with config := { l.config with referenceSource } }

structure Mirrors (f : Bytes → Bytes) (l k : Loader) : Prop where
  packages : k.packages = l.packages
  isBytecode : ∀ specifier, k.config.isBytecode specifier = l.config.isBytecode specifier
  blobPath : ∀ specifier, k.config.blobPath specifier = l.config.blobPath specifier
  pathBound : k.storage.pathBound = l.storage.pathBound
  readBlob : ∀ p, k.readBlob p = f <$> l.readBlob p
  openBlob : ∀ origin context blob,
    (l.openBlob origin context blob).Alike (k.openBlob origin context (f blob))

namespace Mirrors

open CodeCache.Action CodeCache.Action.Alike

variable {f : Bytes → Bytes} {l k : Loader} (mirrors : Mirrors f l k)

include mirrors

theorem runBlob {resolve other : State.Resolver}
    (alike : ∀ specifier referrer, Alike (resolve specifier referrer) (other specifier referrer))
    (origin : Option Path) (context : Option String) (blob : Bytes) :
    (l.runBlob resolve origin context blob).Alike (k.runBlob other origin context (f blob)) :=
  bind (mirrors.openBlob origin context blob) fun id => Alike.finish alike id

theorem resolveImport {runImport runOther : Option String → Path → Action ModuleId}
    (alike : ∀ context p, Alike (runImport context p) (runOther context p)) (specifier : String)
    (referrer : ModuleId) :
    Alike (l.resolveImport runImport specifier referrer)
      (k.resolveImport runOther specifier referrer) := by
  refine bind (of_blind (blind_elementary.moduleAt referrer)) fun r => ?_
  rw [mirrors.isBytecode, mirrors.blobPath, mirrors.packages]
  by_cases bytecode : l.config.isBytecode specifier = true
  · rw [if_pos bytecode, if_pos bytecode]
    exact alike _ _
  · rw [if_neg bytecode, if_neg bytecode]
    refine bind (of_blind (blind_stepwise.require l.packages specifier)) fun package => ?_
    exact of_blind (blind_elementary.syntheticModule _ _ _)

theorem runPathWithin (depth : Nat) (chain : List Path) (context : Option String) (p : Path) :
    (l.runPathWithin depth chain context p).Alike (k.runPathWithin depth chain context p) := by
  induction depth generalizing chain context p with
  | zero => exact of_blind (blind_sequential.throw _)
  | succ depth ih =>
    have opened : Alike
        (l.readBlob p >>= fun blob => l.runBlob
          (l.resolveImport (l.runPathWithin depth (chain ++ [p]))) (some p) context blob)
        (k.readBlob p >>= fun blob => k.runBlob
          (k.resolveImport (k.runPathWithin depth (chain ++ [p]))) (some p) context blob) := by
      rw [mirrors.readBlob, bind_map_left]
      refine bind (of_blind (blind_stepwise.readBlob l p)) fun blob => ?_
      exact mirrors.runBlob (mirrors.resolveImport (ih (chain ++ [p]))) (some p) context blob
    rw [Loader.runPathWithin, Loader.runPathWithin]
    by_cases cycle : chain.any (·.same p) = true
    · rw [if_pos cycle, if_pos cycle]
      exact bind (of_blind (blind_sequential.throw _)) fun _ => opened
    · rw [if_neg cycle, if_neg cycle]
      exact opened

theorem run (context : Option String) (origin : BlobOrigin) :
    (l.run context origin).Alike (k.run context (origin.mapBytes f)) := by
  have paths (context : Option String) (p : Path) :
      (l.runPath context p).Alike (k.runPath context p) := by
    rw [runPath, runPath, mirrors.pathBound]
    exact mirrors.runPathWithin _ [] context p
  cases origin with
  | path p => exact paths context p
  | bytes blob => exact mirrors.runBlob (mirrors.resolveImport paths) none context blob

theorem runNamespace (context : Option String) (origin : BlobOrigin) :
    (l.runNamespace context origin).Alike (k.runNamespace context (origin.mapBytes f)) := by
  refine bind (mirrors.run context origin) fun id => of_blind ?_
  refine blind_sequential.bind (blind_elementary.moduleAt id) fun r => ?_
  by_cases done : r.status = .evaluated
  · rw [if_pos done]
    exact blind_sequential.pure _
  · rw [if_neg done]
    exact blind_sequential.throw _

end Mirrors

theorem openBlob_alike {l k : Loader} {v : Version} {own own' blob blob' : Bytes}
    (build : k.build = l.build) (hv : Version.parse? l.build.version = some v)
    (hr : l.build.compile l.config.referenceSource = .ok own)
    (hr' : l.build.compile k.config.referenceSource = .ok own')
    (same : k.patched v own' blob' = l.patched v own blob) (origin : Option Path)
    (context : Option String) :
    (l.openBlob origin context blob).Alike (k.openBlob origin context blob') := by
  intro s events
  have opened : k.openPatched origin context = l.openPatched origin context := by
    funext blob
    simp only [openPatched, build]
  rw [← build] at hr' hv
  rw [run_openBlob hv hr' origin context blob', same, opened]
  rw [build] at hv
  rw [run_openBlob hv hr origin context blob]
  exact blind_stepwise.openPatched l origin context (l.patched v own blob) (l.compiled s) _

section

variable {l : Loader} {v : Version} {source other : String} {reference own unused : Bytes}
  (hv : Version.parse? l.build.version = some v) (within : l.config.table.Within 12 24)
  (compiled : l.build.compile source = .ok reference)
  (hr : l.build.compile l.config.referenceSource = .ok own)

include hv within compiled hr

theorem mirrors_patchingFrom : Mirrors id l (l.patchingFrom source) := by
  have same (blob : Bytes) :
      (l.patchingFrom source).patched v reference blob = l.patched v own blob :=
    Patch.Table.patch_congr within compiled hr v blob
  constructor
  case packages => rfl
  case isBytecode => exact fun _ => rfl
  case blobPath => exact fun _ => rfl
  case pathBound => rfl
  case readBlob => exact fun p => (id_map (l.readBlob p)).symm
  case openBlob =>
    intro origin context blob
    exact openBlob_alike (l := l) (k := l.patchingFrom source) rfl hv hr compiled (same blob)
      origin context

theorem mirrors_unpatching {m : Memory} (memory : l.storage = .memory m)
    (hu : l.build.compile other = .ok unused) :
    Mirrors (l.patched v reference) l
      (l.unpatching (m.mapContents (l.patched v reference)) other) := by
  have same (blob : Bytes) : l.patched v reference blob = l.patched v own blob :=
    Patch.Table.patch_congr within compiled hr v blob
  constructor
  case packages => rfl
  case isBytecode => exact fun _ => rfl
  case blobPath => exact fun _ => rfl
  case pathBound => simp [unpatching, memory, Storage.pathBound, Memory.mapContents]
  case readBlob =>
    intro p
    have contents := Memory.get?_mapContents (l.patched v reference) m p
    cases found : m.get? p with
    | none =>
      rw [found] at contents
      rw [readBlob_of_missing memory found,
        readBlob_of_missing (l := l.unpatching _ other) rfl contents]
      rfl
    | some blob =>
      rw [found] at contents
      rw [readBlob_of_found memory found,
        readBlob_of_found (l := l.unpatching _ other) rfl contents]
      rfl
  case openBlob =>
    -- Without recipes nothing is patched a second time.
    intro origin context blob
    exact openBlob_alike (l := l) (k := l.unpatching _ other) rfl hv hr hu (same blob)
      origin context

/-- A run that patches nothing over files and a blob that were patched before, with the header of
any blob of this build, does what a run that patches them does over the files and the blob as they
are. Nor does it matter which blob of this build a patching run takes the header from. -/
theorem run_unpatching {m : Memory} (memory : l.storage = .memory m)
    (hu : l.build.compile other = .ok unused) (context : Option String) (origin : BlobOrigin) :
    let patch := fun blob => (l.config.table.patch v blob reference).2
    let unpatching := l.unpatching (m.mapContents patch) other
    let patchingFrom := l.patchingFrom source
    (l.run context origin).Alike (unpatching.run context (origin.mapBytes patch)) ∧
      (l.runNamespace context origin).Alike
        (unpatching.runNamespace context (origin.mapBytes patch)) ∧
      (l.run context origin).Alike (patchingFrom.run context origin) ∧
      (l.runNamespace context origin).Alike (patchingFrom.runNamespace context origin) := by
  intro patch unpatching patchingFrom
  have ahead : Mirrors patch l unpatching := mirrors_unpatching hv within compiled hr memory hu
  have atLoad : Mirrors id l patchingFrom := mirrors_patchingFrom hv within compiled hr
  have whole : origin.mapBytes id = origin := by cases origin <;> rfl
  have run := atLoad.run context origin
  have exported := atLoad.runNamespace context origin
  rw [whole] at run exported
  exact ⟨ahead.run context origin, ahead.runNamespace context origin, run, exported⟩

end

def shippedBlob (source : String) (script : Script) : Bytes :=
  Blob.encode script (Text.units16 source) (Build.ofVersion "v18.0.0" 7).fingerprint

def shipped : Memory where
  files := [(⟨"a.jsc"⟩, shippedBlob Sample.answer answerScript), (⟨"b.jsc"⟩, [0xC0])]

def receiving : Loader := { fetching with storage := .memory shipped }

theorem get?_shipped : shipped.get? ⟨"a.jsc"⟩ = some (shippedBlob Sample.answer answerScript) := by
  simp [Memory.get?, shipped, Path.same_refl]

/-- Blobs of another build, patched with the header of the blob of another source, are loaded
without recipes. -/
theorem run_unpatching_shipped :
    ∃ reference, receiving.build.compile Sample.answer = .ok reference ∧
      let patch := fun blob => (receiving.config.table.patch ⟨20, 0, 0⟩ blob reference).2
      let unpatching := receiving.unpatching (shipped.mapContents patch) Sample.answer
      ((unpatching.runNamespace none (.bytes (patch (shippedBlob fetch fetchScript)))).run {}).1 =
        .ok [("default", .int 42)] := by
  obtain ⟨reference, compiled⟩ : ∃ reference,
      receiving.build.compile Sample.answer = .ok reference :=
    ⟨_, Build.compile_eq parse_answer _⟩
  refine ⟨reference, compiled, ?_⟩
  intro patch unpatching
  obtain ⟨_, exported, _⟩ := run_unpatching (l := receiving) (plain_version 1)
    Patch.Table.builtin_within compiled (plain_reference 1) rfl compiled none
    (.bytes (shippedBlob fetch fetchScript))
  refine (exported.outcome {}).trans ?_
  rw [outcome_runNamespace (l := receiving) (m := shipped) rfl]
  exact interpret_fetch (l := receiving) rfl rfl rfl get?_shipped _

end Loader

end CodeCache
