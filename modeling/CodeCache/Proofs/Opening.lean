import CodeCache.Proofs.Acceptance
import CodeCache.Proofs.Overlay
import CodeCache.Proofs.Stepwise
import Mathlib

/-! # Opening blobs

What a run does with the bytes of a blob before anything is linked. Bytes without a usable length
field make no module, bytes that the engine refuses leave one placeholder behind that is never
linked, and from all other bytes the script of their payload is linked and evaluated. -/

namespace CodeCache

namespace State

theorem run_compile {b : Build} {source : String} {blob : Bytes} (h : b.compile source = .ok blob)
    (s : State) :
    (compile b source).run s =
      (.ok blob, { s with events := s.events ++ [.compile (Text.units16 source)] }) := by
  rw [compile, Action.run_bind_ok (run_record _ s), h]
  rfl

theorem run_sourceModule {b : Build} {source : Source} {cached : Option Bytes} {body : ModuleBody}
    {rejection : Option Blob.Rejection} (h : instantiate b source cached = .ok (body, rejection))
    (context : Option String) (s : State) :
    (sourceModule b source cached context).run s =
      (.ok s.modules.length,
        { s with
          modules := s.modules ++ [{ body, context, rejection }]
          events := s.events ++
            [.source source.units (cached.map List.length) context s.modules.length] }) := by
  rw [sourceModule, h]
  rfl

end State

namespace Loader

variable {l : Loader} {v : Version} {reference : Bytes}

def patched (l : Loader) (v : Version) (reference blob : Bytes) : Bytes :=
  (l.config.table.patch v blob reference).2

theorem length_patched (l : Loader) (v : Version) (reference blob : Bytes) :
    (l.patched v reference blob).length = blob.length :=
  Patch.Table.length_patch l.config.table v blob reference

theorem getElem?_patched_of_outside (within : l.config.table.Within 12 24) {i : Nat}
    (outside : ¬(12 ≤ i ∧ i < 24)) (blob : Bytes) :
    (l.patched v reference blob)[i]? = blob[i]? := by
  rw [patched, Patch.Table.getElem?_patch, if_neg]
  rintro ⟨covered, _⟩
  exact outside (within.of_covers covered)

theorem word_patched (within : l.config.table.Within 12 24) {o : Nat} (h : o + 4 ≤ 12)
    (blob : Bytes) : (l.patched v reference blob).word o = blob.word o := by
  apply Bytes.word_congr
  intro i _ high
  exact getElem?_patched_of_outside within (by omega) blob

theorem drop_patched (within : l.config.table.Within 12 24) (blob : Bytes) :
    (l.patched v reference blob).drop Header.size = blob.drop Header.size := by
  apply List.ext_getElem?
  intro i
  rw [List.getElem?_drop, List.getElem?_drop]
  exact getElem?_patched_of_outside within (by simp only [Header.size]; omega) blob

/-- No patch of the build words helps a blob whose payload is not the one of its checksum. -/
theorem not_accepts_of_checksum (within : l.config.table.Within 12 24) {blob : Bytes}
    (differs : blob.word 4 ≠ Blob.checksum (blob.drop Header.size)) :
    ¬l.build.Accepts (l.patched v reference blob) := by
  intro accepted
  have sum := accepted.checksum
  rw [word_patched within (by decide), drop_patched within] at sum
  exact differs sum

def compiled (l : Loader) (s : State) : State :=
  { s with events := s.events ++ [.compile (Text.units16 l.config.referenceSource)] }

section

variable (hv : Version.parse? l.build.version = some v)
  (hr : l.build.compile l.config.referenceSource = .ok reference)

include hv hr

theorem run_patch (blob : Bytes) (s : State) :
    (l.patch blob).run s = (.ok (l.config.table.patch v blob reference), l.compiled s) := by
  simp only [patch, hv]
  rw [Action.run_bind_ok (State.run_compile hr s)]
  rfl

theorem run_openBlob (origin : Option Path) (context : Option String) (blob : Bytes) (s : State) :
    (l.openBlob origin context blob).run s =
      (l.openPatched origin context (l.patched v reference blob)).run (l.compiled s) := by
  rw [openBlob, Action.run_bind_ok (run_patch hv hr blob s)]
  rfl

end

section

variable {origin : Option Path} {context : Option String} {blob : Bytes} {p : Placeholder}

theorem run_placeholderFor (h : Placeholder.ofBlob blob = .ok p) (s : State) :
    (placeholderFor blob).run s = (.ok p, s) := by
  rw [placeholderFor, h]
  rfl

theorem openPatched_of_header {e : HeaderError} (h : Placeholder.ofBlob blob = .error e)
    (s : State) : (l.openPatched origin context blob).run s = (.error (.header e), s) := by
  refine Action.run_bind_error ?_
  rw [placeholderFor, h]
  rfl

/-- The state once a module has been made from a blob of `size` bytes that goes with a source of
`units` UTF-16 units. -/
def made (s : State) (units size : Nat) (r : ModuleRecord) : State :=
  { s with
    modules := s.modules ++ [r]
    events := s.events ++ [.source units (some size) r.context s.modules.length] }

theorem getElem?_made (s : State) (units size : Nat) (r : ModuleRecord) :
    (made s units size r).modules[s.modules.length]? = some r := by
  simp [made]

theorem moduleAt_made (s : State) (units size : Nat) (r : ModuleRecord) :
    (State.moduleAt s.modules.length).run (made s units size r) = (.ok r, made s units size r) := by
  rw [State.run_moduleAt, getElem?_made]

theorem run_sourceModule {body : ModuleBody} {rejection : Option Blob.Rejection}
    (h : State.instantiate l.build (.placeholder p) (some blob) = .ok (body, rejection))
    (s : State) :
    (State.sourceModule l.build (.placeholder p) (some blob) context).run s =
      (.ok s.modules.length, made s p.length blob.length { body, context, rejection }) :=
  State.run_sourceModule h context s

theorem openPatched_of_accepted {script : Script} (hp : Placeholder.ofBlob blob = .ok p)
    (h : Blob.decode blob p.length l.build.fingerprint l.build.checkedOffsets = .ok script)
    (s : State) :
    (l.openPatched origin context blob).run s =
      (.ok s.modules.length, made s p.length blob.length { body := .source script, context }) := by
  have body : State.instantiate l.build (.placeholder p) (some blob) =
      .ok (.source script, none) := by
    simp [State.instantiate, Source.units, h]
  rw [openPatched, Action.run_bind_ok (run_placeholderFor hp s),
    Action.run_bind_ok (run_sourceModule body s),
    Action.run_bind_ok (moduleAt_made s p.length blob.length _)]
  rfl

theorem openPatched_of_refused {rejection : Blob.Rejection} (hp : Placeholder.ofBlob blob = .ok p)
    (h : Blob.decode blob p.length l.build.fingerprint l.build.checkedOffsets = .error rejection)
    (s : State) :
    (l.openPatched origin context blob).run s =
      (.error (.cacheRejected origin),
        made s p.length blob.length
          { body := .placeholder p, context, rejection := some rejection }) := by
  have body : State.instantiate l.build (.placeholder p) (some blob) =
      .ok (.placeholder p, some rejection) := by
    simp [State.instantiate, Source.units, h, Source.compile, Except.map]
  rw [openPatched, Action.run_bind_ok (run_placeholderFor hp s),
    Action.run_bind_ok (run_sourceModule body s),
    Action.run_bind_ok (moduleAt_made s p.length blob.length _)]
  rfl

end

theorem finish_eq_ok {resolve : State.Resolver} {id found : ModuleId} {s : State}
    (h : ((finish resolve id).run s).1 = .ok found) : found = id := by
  obtain ⟨_, t, _, h⟩ := Action.of_run_bind h
  obtain ⟨_, u, _, h⟩ := Action.of_run_bind h
  cases h
  rfl

theorem retains_finish (l : Loader) (id : ModuleId) (s : State) :
    s.Retains ((finish (l.resolveImport l.runPath) id).run s).2 :=
  State.retains_stepwise.finish (State.retains_stepwise.resolveBlob l) id s

/-- A module that was made from a source stays made from it while it is linked and evaluated. -/
theorem source_of_finish {s t : State} {r : ModuleRecord} {script : Script} {i : ModuleId}
    (h : s.Retains t) (found : s.modules[i]? = some r) (body : r.body = .source script) :
    ∃ r' : ModuleRecord, t.modules[i]? = some r' ∧ r'.body = .source script ∧
      r'.context = r.context ∧ r'.rejection = r.rejection := by
  obtain ⟨r', found', context, rejection, same | begun⟩ := h i r found
  · exact ⟨r', found', same.trans body, context, rejection⟩
  · refine ⟨r', found', ?_, context, rejection⟩
    rw [begun, body]
    rfl

section

variable {blob : Bytes} {p : Placeholder} (hv : Version.parse? l.build.version = some v)
  (hr : l.build.compile l.config.referenceSource = .ok reference)

include hv hr

theorem run_bytes_of_header {e : HeaderError}
    (h : Placeholder.ofBlob (l.patched v reference blob) = .error e) (context : Option String)
    (s : State) :
    (l.run context (.bytes blob)).run s = (.error (.header e), l.compiled s) := by
  apply Action.run_bind_error
  rw [run_openBlob hv hr]
  exact openPatched_of_header h _

/-- A refused blob leaves the module of its placeholder behind. -/
theorem run_bytes_of_refused {rejection : Blob.Rejection}
    (placeholder : Placeholder.ofBlob (l.patched v reference blob) = .ok p)
    (decoded : Blob.decode (l.patched v reference blob) p.length l.build.fingerprint
      l.build.checkedOffsets = .error rejection) (context : Option String) (s : State) :
    (l.run context (.bytes blob)).run s =
      (.error (.cacheRejected none),
        made (l.compiled s) p.length blob.length
          { body := .placeholder p, context, rejection := some rejection }) := by
  apply Action.run_bind_error
  rw [run_openBlob hv hr, openPatched_of_refused placeholder decoded, length_patched]

/-- An accepted blob goes on with its script. -/
theorem run_bytes_of_accepted {script : Script}
    (placeholder : Placeholder.ofBlob (l.patched v reference blob) = .ok p)
    (decoded : Blob.decode (l.patched v reference blob) p.length l.build.fingerprint
      l.build.checkedOffsets = .ok script) (context : Option String) (s : State) :
    (l.run context (.bytes blob)).run s =
      (finish (l.resolveImport l.runPath) s.modules.length).run
        (made (l.compiled s) p.length blob.length { body := .source script, context }) := by
  apply Action.run_bind_ok
  rw [run_openBlob hv hr, openPatched_of_accepted placeholder decoded, length_patched]
  rfl

/-- The module of an accepted blob stays made from its script, whatever comes of its imports. -/
theorem source_of_run_bytes {script : Script}
    (placeholder : Placeholder.ofBlob (l.patched v reference blob) = .ok p)
    (decoded : Blob.decode (l.patched v reference blob) p.length l.build.fingerprint
      l.build.checkedOffsets = .ok script) (context : Option String) (s : State) :
    ∃ r : ModuleRecord,
      ((l.run context (.bytes blob)).run s).2.modules[s.modules.length]? = some r ∧
        r.body = .source script ∧ r.context = context ∧ r.rejection = none := by
  rw [run_bytes_of_accepted hv hr placeholder decoded]
  have found := getElem?_made (l.compiled s) p.length blob.length
    { body := .source script, context }
  exact source_of_finish (retains_finish l _ _) found rfl

end

/-- What becomes of arbitrary bytes, whatever ranges the patch table has. -/
theorem run_bytes_cases (hv : Version.parse? l.build.version = some v)
    (hr : l.build.compile l.config.referenceSource = .ok reference) (context : Option String)
    (blob : Bytes) (s : State) :
    let patched := l.patched v reference blob
    let length := Header.lengthOf (patched.word 8)
    let outcome := (l.run context (.bytes blob)).run s
    (blob.length < 12 →
      outcome = (.error (.header (.truncated blob.length)), l.compiled s)) ∧
    (12 ≤ blob.length → Header.maxSourceLength < length →
      outcome = (.error (.header (.sourceTooLong length)), l.compiled s)) ∧
    (12 ≤ blob.length → length ≤ Header.maxSourceLength → ¬l.build.Accepts patched →
      ∃ (p : Placeholder) (rejection : Blob.Rejection),
        Placeholder.ofLength length = .ok p ∧ Script.parse p.text = .ok p.script ∧
        outcome = (.error (.cacheRejected none),
          made (l.compiled s) p.length blob.length
            { body := .placeholder p, context, rejection := some rejection,
              status := .unlinked, deps := [], exports := [] })) ∧
    (12 ≤ blob.length → length ≤ Header.maxSourceLength → l.build.Accepts patched →
      ∃ (p : Placeholder) (script : Script), Payload.decode (patched.drop 24) = some script ∧
        outcome = (finish (l.resolveImport l.runPath) s.modules.length).run
          (made (l.compiled s) p.length blob.length { body := .source script, context }) ∧
        (∀ id, outcome.1 = .ok id → id = s.modules.length) ∧
        ∃ r : ModuleRecord, outcome.2.modules[s.modules.length]? = some r ∧
          r.body = .source script ∧ r.context = context ∧ r.rejection = none) := by
  intro patched length outcome
  have size : patched.length = blob.length := length_patched l v reference blob
  have recorded (long : 12 ≤ blob.length) :
      Placeholder.ofBlob patched = Placeholder.ofLength length :=
    Placeholder.ofBlob_eq (Nat.le_trans long (Nat.le_of_eq size.symm))
  refine ⟨?truncated, ?tooLong, ?refused, ?accepted⟩
  case truncated =>
    intro short
    have incomplete : ¬Header.fieldOffset + 4 ≤ patched.length := by
      rw [size]
      exact Nat.not_le.2 short
    have header : Placeholder.ofBlob patched = .error (.truncated blob.length) := by
      rw [Placeholder.ofBlob, Header.sourceLength, Header.field, if_neg incomplete, size]
      rfl
    exact run_bytes_of_header hv hr header context s
  case tooLong =>
    intro long above
    have header : Placeholder.ofBlob patched = .error (.sourceTooLong length) := by
      rw [recorded long, Placeholder.ofLength, if_pos above]
    exact run_bytes_of_header hv hr header context s
  case refused =>
    intro long within refused
    obtain ⟨p, fits⟩ := Placeholder.ofLength_eq within
    have placeholder := (recorded long).trans fits
    obtain ⟨rejection, decoded⟩ := Build.decode_of_not_accepts refused placeholder
    exact ⟨p, rejection, fits, p.parse_text,
      run_bytes_of_refused hv hr placeholder decoded context s⟩
  case accepted =>
    intro long within accepted
    obtain ⟨p, fits⟩ := Placeholder.ofLength_eq within
    have placeholder := (recorded long).trans fits
    obtain ⟨script, read, decoded⟩ := accepted.decode placeholder
    have run : outcome = _ := run_bytes_of_accepted hv hr placeholder decoded context s
    refine ⟨p, script, read, run, ?_, source_of_run_bytes hv hr placeholder decoded context s⟩
    intro id ok
    rw [run] at ok
    exact finish_eq_ok ok

/-- A loader with the default configuration and nothing to import. -/
def plain (number : UInt64) : Loader where
  build := .ofVersion "v20.0.0" number
  config := {}
  packages := .ofTable []
  storage := .memory {}

theorem plain_version (number : UInt64) :
    Version.parse? (plain number).build.version = some ⟨20, 0, 0⟩ := by
  show Version.parse? "v20.0.0" = _
  decide

theorem parse_reference :
    Script.parse ({} : Config).referenceSource = .ok { body := [.expr (.str "ಠ_ಠ")] } := by
  show Script.parse "\"ಠ_ಠ\"" = _
  cbv

theorem plain_reference (number : UInt64) :
    (plain number).build.compile (plain number).config.referenceSource =
      .ok (Blob.encode { body := [.expr (.str "ಠ_ಠ")] } 5 (plain number).build.fingerprint) :=
  Build.compile_eq parse_reference _

/-- Bytes that end before the payload are refused, and so is a blob with a byte too many, for its
checksum. -/
theorem run_bytes_damaged :
    (∃ rejection, ((plain 1).run none (.bytes (List.replicate 12 0))).run {} =
      (.error (.cacheRejected none),
        { modules := [{ body := .placeholder .empty, context := none, rejection := some rejection }]
          events := [.compile 5, .source 0 (some 12) none 0] })) ∧
    ∃ rejection, ((plain 1).run none
        (.bytes (Blob.encode {} 18 (plain 1).build.fingerprint ++ [0]))).run {} =
      (.error (.cacheRejected none),
        { modules := [
            { body := .placeholder (.literal 16), context := none, rejection := some rejection }]
          events := [.compile 5, .source 18 (some 41) none 0] }) := by
  constructor
  · obtain ⟨_, _, refused, _⟩ := run_bytes_cases (plain_version 1) (plain_reference 1) none
      (List.replicate 12 0) {}
    have zero (reference : Bytes) : Header.lengthOf
        (((plain 1).patched ⟨20, 0, 0⟩ reference (List.replicate 12 0)).word 8) = 0 := by
      rw [word_patched (l := plain 1) Patch.Table.builtin_within (Nat.le_refl 12)]
      decide
    have short (reference : Bytes) : ¬(plain 1).build.Accepts
        ((plain 1).patched ⟨20, 0, 0⟩ reference (List.replicate 12 0)) := by
      intro accepted
      have complete := accepted.complete
      rw [length_patched] at complete
      exact absurd complete (by decide)
    rw [zero] at refused
    obtain ⟨p, rejection, placeholder, _, run⟩ := refused (by decide) (by decide) (short _)
    cases placeholder
    exact ⟨rejection, run⟩
  · obtain ⟨blob, made, size, recorded, differs⟩ : ∃ blob : Bytes,
        Blob.encode {} 18 (plain 1).build.fingerprint ++ [0] = blob ∧ blob.length = 41 ∧
        Header.lengthOf (blob.word 8) = 18 ∧
        blob.word 4 ≠ Blob.checksum (blob.drop Header.size) :=
      ⟨_, rfl, by decide +kernel, by decide +kernel, by decide +kernel⟩
    rw [made]
    obtain ⟨_, _, refused, _⟩ := run_bytes_cases (plain_version 1) (plain_reference 1) none blob {}
    have within : (plain 1).config.table.Within 12 24 := Patch.Table.builtin_within
    rw [size, word_patched within (by decide), recorded] at refused
    obtain ⟨p, rejection, placeholder, _, run⟩ :=
      refused (by decide) (by decide) (not_accepts_of_checksum within differs)
    cases placeholder
    exact ⟨rejection, run⟩

end Loader

end CodeCache
