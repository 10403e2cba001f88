import CodeCache.Proofs.Refusals

/-! # An engine and its own blobs

A compiled blob records the length of its source, and its placeholder has that length. Only a length
of one is too short for the quotes, and gets the empty placeholder. So with the default
configuration an engine takes every blob that it has compiled itself, and those of other engines,
except that it refuses the blob of a source of one unit. -/

namespace CodeCache

open Loader (decodeBlob_compiled finish_elsewhere openBlob_of_error openBlob_of_ok parse_reference
  runPathWithin_succ seals_patched source_of_finish)

namespace Blob.Seals

variable {blob : Bytes} {s : Script} {units : Nat}

theorem sourceLength (sealed : Seals blob s units)
    (small : units ≤ Header.maxSourceLength.toNat) :
    ∃ n, Header.sourceLength blob = .ok n ∧ n.toNat = units := by
  have complete : Header.fieldOffset + 4 ≤ blob.length :=
    Nat.le_trans (by decide) sealed.complete
  refine ⟨_, ?_, sealed.toNat_lengthOf small⟩
  rw [Header.sourceLength, Header.field, if_pos complete]
  rfl

theorem not_accepts (sealed : Seals blob s 1) (b : Build) : ¬b.Accepts blob := by
  intro accepted
  apply accepted.length
  apply UInt32.toNat_inj.1
  exact sealed.toNat_lengthOf (by decide)

end Blob.Seals

namespace BlobOrigin

def stored : BlobOrigin → Option Path
  | bytes _ => none
  | path p => some p

def Gives (l : Loader) (blob : Bytes) : BlobOrigin → Prop
  | bytes given => given = blob
  | path p => l.storage.read p = .ok blob

end BlobOrigin

namespace Loader

variable {l : Loader} {origin : BlobOrigin} {blob : Bytes} {script : Script} {e : LoadError}

theorem run_of_gives (gives : origin.Gives l blob) (context : Option String) :
    ∃ depth, l.run context origin = (l.openBlob origin.stored context blob >>=
      finish (l.resolveImport (l.runPathWithin depth origin.stored.toList))) := by
  cases origin with
  | bytes given =>
    cases gives
    exact ⟨l.storage.pathBound, rfl⟩
  | path p =>
    obtain ⟨depth, bound⟩ : ∃ depth, l.storage.pathBound = depth + 1 := by
      cases l.storage <;> exact ⟨_, rfl⟩
    have read : l.readBlob p = pure blob := by
      have found : l.storage.read p = .ok blob := gives
      rw [readBlob, found]
    refine ⟨depth, ?_⟩
    show l.runPathWithin l.storage.pathBound [] context p = _
    rw [bound, runPathWithin_succ, loadPath, if_neg (by simp), read, pure_bind]
    rfl

theorem run_of_decoded (gives : origin.Gives l blob)
    (decoded : l.decodeBlob origin.stored blob = .ok script) (context : Option String) (s : State) :
    (∃ r : ModuleRecord, ((l.run context origin).run s).2.modules[s.modules.length]? = some r ∧
      r.body = .source script ∧ r.context = context ∧ r.rejection = none) ∧
    CodeCache.FailsOnly (l.Elsewhere origin.stored.toList) ((l.run context origin).run s).1 := by
  obtain ⟨depth, shape⟩ := run_of_gives gives context
  obtain ⟨t, opened, _, record⟩ := openBlob_of_ok decoded context s
  have run : (l.run context origin).run s =
      (finish (l.resolveImport (l.runPathWithin depth origin.stored.toList))
        s.modules.length).run t := by
    rw [shape, Action.run_bind_ok opened]
  rw [run]
  refine ⟨?_, l.finish_elsewhere depth _ _ t⟩
  have nested := State.retains_stepwise.runPathWithin l depth origin.stored.toList
  have retains := State.retains_stepwise.finish (State.retains_stepwise.resolveImport l nested)
    s.modules.length t
  exact source_of_finish retains record rfl

theorem run_of_undecoded (gives : origin.Gives l blob)
    (decoded : l.decodeBlob origin.stored blob = .error e) (context : Option String) (s : State) :
    ((l.run context origin).run s).1 = .error e := by
  obtain ⟨depth, shape⟩ := run_of_gives gives context
  obtain ⟨t, opened, _⟩ := openBlob_of_error decoded context s
  rw [shape, Action.run_bind_error opened]

theorem decodeBlob_single {v : Version} {reference : Bytes}
    (hv : Version.parse? l.build.version = some v)
    (hr : l.build.compile l.config.referenceSource = .ok reference)
    (within : l.config.table.Within 12 24) (f : Blob.Fingerprint) (origin : Option Path) :
    l.decodeBlob origin (Blob.encode script 1 f) = .error (.cacheRejected origin) := by
  have sealed : Blob.Seals (l.patched v reference (Blob.encode script 1 f)) script 1 :=
    seals_patched within
  obtain ⟨p, placeholder, _⟩ := sealed.placeholder (by decide)
  obtain ⟨rejection, decoded⟩ :=
    Build.decode_of_not_accepts (sealed.not_accepts l.build) placeholder
  simp only [decodeBlob, hv, hr, placeholder, decoded]

/-- With the default configuration, the blob of a source is taken from any build unless the source
is of one unit. -/
theorem decodeBlob_default {version : String} {number : UInt64} {v : Version} {source : String}
    (hb : l.build = .ofVersion version number) (hv : Version.parse? version = some v)
    (default : l.config = {}) (parsed : Script.parse source = .ok script)
    (small : Text.units16 source ≤ Header.maxSourceLength.toNat) (f : Blob.Fingerprint)
    (origin : Option Path) :
    l.decodeBlob origin (Blob.encode script (Text.units16 source) f) =
      if Text.units16 source = 1 then .error (.cacheRejected origin) else .ok script := by
  by_cases single : Text.units16 source = 1
  · have version : Version.parse? l.build.version = some v := by
      rw [hb]
      exact hv
    have reference := Build.compile_eq parse_reference l.build
    rw [← default] at reference
    have within : l.config.table.Within 12 24 := by
      rw [default]
      exact Patch.Table.builtin_within
    rw [if_pos single, single]
    exact decodeBlob_single version reference within f origin
  · rw [if_neg single]
    exact decodeBlob_of_default hb hv default parsed single small f origin

/-- The recorded length is the one of the source, and the placeholder is as long unless the quotes
do not fit. -/
theorem placeholder_of_compile {producer : Build} {source : String}
    (compiled : producer.compile source = .ok blob)
    (small : Text.units16 source ≤ Header.maxSourceLength.toNat) :
    ∃ n p, Header.sourceLength blob = .ok n ∧ n.toNat = Text.units16 source ∧
      Placeholder.ofBlob blob = .ok p ∧ (n.toNat ≠ 1 → Text.units16 p.text = n.toNat) ∧
      (n.toNat = 1 → p.text = "") := by
  obtain ⟨script, _, rfl⟩ := Build.compile_eq_ok compiled
  have sealed := Blob.seals_encode script (Text.units16 source) producer.fingerprint
  obtain ⟨n, recorded, length⟩ := sealed.sourceLength small
  obtain ⟨p, placeholder, filled⟩ := sealed.placeholder small
  rw [← length] at filled
  refine ⟨n, p, recorded, length, placeholder, ?_, ?_⟩
  · intro other
    rw [p.units16_text, filled]
    split <;> omega
  · intro single
    rw [single, if_pos (Nat.le_refl 1)] at filled
    cases p with
    | empty => rfl
    | literal fillers => cases filled

/-- The recorded length of a compiled blob is the one of its source, and its placeholder has that
length unless it is one, when it is empty. With the default configuration every engine, the one that
compiled the blob among them, makes its module from the script of the source, so that a refusal is
one of another blob; only the blob of a source of one unit is refused. -/
theorem run_default {producer : Build} {source : String}
    (compiled : producer.compile source = .ok blob)
    (small : Text.units16 source ≤ Header.maxSourceLength.toNat) :
    ∃ n p, Header.sourceLength blob = .ok n ∧ n.toNat = Text.units16 source ∧
      Placeholder.ofBlob blob = .ok p ∧ (n.toNat ≠ 1 → Text.units16 p.text = n.toNat) ∧
      (n.toNat = 1 → p.text = "") ∧
      ∀ (l : Loader) (version : String) (number : UInt64) (v : Version),
        l.build = .ofVersion version number → Version.parse? version = some v → l.config = {} →
        ∀ origin : BlobOrigin, origin.Gives l blob → ∀ context s,
          (n.toNat ≠ 1 →
            (∃ (script : Script) (r : ModuleRecord), Script.parse source = .ok script ∧
              ((l.run context origin).run s).2.modules[s.modules.length]? = some r ∧
              r.body = .source script ∧ r.context = context ∧ r.rejection = none) ∧
            ∀ named, ((l.run context origin).run s).1 = .error (.cacheRejected named) →
              (∃ q, named = some q ∧ ∀ p ∈ origin.stored, p.same q = false) ∨
                ∃ specifier, l.packages.answer specifier = .error (.cacheRejected named)) ∧
          (n.toNat = 1 →
            ((l.run context origin).run s).1 = .error (.cacheRejected origin.stored)) := by
  obtain ⟨n, p, recorded, length, placeholder, exact, short⟩ :=
    placeholder_of_compile compiled small
  refine ⟨n, p, recorded, length, placeholder, exact, short, ?_⟩
  obtain ⟨script, parsed, rfl⟩ := Build.compile_eq_ok compiled
  intro l version number v hb hv default origin gives context s
  have decoded := decodeBlob_default hb hv default parsed small producer.fingerprint origin.stored
  constructor
  · intro other
    rw [if_neg (length ▸ other)] at decoded
    obtain ⟨⟨r, made⟩, fails⟩ := run_of_decoded gives decoded context s
    refine ⟨⟨script, r, parsed, made⟩, ?_⟩
    intro named refused
    rcases fails _ refused named rfl with ⟨q, here, outside⟩ | answer
    · refine .inl ⟨q, here, fun p member => ?_⟩
      exact Bool.eq_false_iff.2 (List.any_eq_false.1 outside p (Option.mem_toList.2 member))
    · exact .inr answer
  · intro single
    rw [if_pos (length ▸ single)] at decoded
    exact run_of_undecoded gives decoded context s

theorem run_default_answer :
    ∃ blob p r, (plain 1).build.compile Sample.answer = .ok blob ∧
      Placeholder.ofBlob blob = .ok p ∧ Text.units16 p.text = 18 ∧
      (((plain 1).run none (.bytes blob)).run {}).2.modules[0]? = some r ∧ r.rejection = none := by
  have compiled := Build.compile_eq parse_answer (plain 1).build
  obtain ⟨n, p, _, length, placeholder, exact, _, runs⟩ := run_default compiled (by decide)
  have other : n.toNat = 18 := length
  obtain ⟨taken, _⟩ := runs (plain 1) _ 1 _ rfl (plain_version 1) rfl (.bytes _) rfl none {}
  obtain ⟨⟨_, r, _, found, _, _, clean⟩, _⟩ := taken (by omega)
  exact ⟨_, p, r, compiled, placeholder, (exact (by omega)).trans other, found, clean⟩

def torn : Memory where
  files := [(⟨"a.jsc"⟩, Blob.encode {} 1 (plain 1).build.fingerprint)]

def tearing : Loader := { plain 1 with storage := .memory torn }

theorem parse_blank : Script.parse " " = .ok {} := by cbv

theorem decodeBlob_torn (origin : Option Path) :
    tearing.decodeBlob origin (Blob.encode {} 1 (plain 1).build.fingerprint) =
      .error (.cacheRejected origin) :=
  decodeBlob_single (l := tearing) (plain_version 1) (plain_reference 1)
    Patch.Table.builtin_within _ origin

theorem interpret_tearing (globals : Scope) :
    tearing.interpret torn globals (.bytes (Blob.encode selfImport
      (Text.units16 "import \"a.jsc\";") (plain 1).build.fingerprint)) =
        .error (.cacheRejected (some ⟨"a.jsc"⟩)) := by
  have decoded := decodeBlob_plain (l := tearing) rfl rfl parse_selfImport (by decide) (by decide)
    (plain 1).build.fingerprint none
  have file : torn.get? ⟨"a.jsc"⟩ =
      some (Blob.encode {} 1 (plain 1).build.fingerprint) := by
    simp [Memory.get?, torn, Path.same_refl]
  have imported : tearing.interpretPath torn globals [] (tearing.config.blobPath "a.jsc") =
      .error (.cacheRejected (some ⟨"a.jsc"⟩)) := by
    show tearing.interpretPath torn globals [] ⟨"a.jsc"⟩ = _
    rw [interpretPath_of_file rfl file, interpretBlob, decodeBlob_torn]
    rfl
  have specifiers : selfImport.specifiers = ["a.jsc"] := by decide
  rw [interpret, interpretBlob, decoded]
  show tearing.interpretScript _ globals selfImport = _
  rw [interpretScript, specifiers, gather, importExports, if_pos (by decide), imported]
  rfl

/-- The blob of a blank has a placeholder that is too short, and is refused by the engine that
compiled it. A longer source can import such a blob from a file, and running it is answered with
the refusal of the file. -/
theorem own_blob_refused :
    (∃ blob p, tearing.build.compile " " = .ok blob ∧ Header.sourceLength blob = .ok 1 ∧
      Placeholder.ofBlob blob = .ok p ∧ Text.units16 p.text = 0 ∧
      ((tearing.run none (.bytes blob)).run {}).1 = .error (.cacheRejected none)) ∧
    ∃ blob, tearing.build.compile "import \"a.jsc\";" = .ok blob ∧
      ((tearing.run none (.bytes blob)).run {}).1 = .error (.cacheRejected (some ⟨"a.jsc"⟩)) := by
  constructor
  · have compiled := Build.compile_eq parse_blank tearing.build
    obtain ⟨n, p, recorded, one, placeholder, _, short⟩ :=
      placeholder_of_compile compiled (by decide)
    have single : n = 1 := UInt32.toNat_inj.1 one
    refine ⟨_, p, compiled, single ▸ recorded, placeholder, ?_, ?_⟩
    · rw [short one]
      rfl
    · have given : (BlobOrigin.bytes (Blob.encode {} 1 tearing.build.fingerprint)).Gives tearing
          (Blob.encode {} 1 tearing.build.fingerprint) := rfl
      exact run_of_undecoded given (decodeBlob_torn none) none {}
  · refine ⟨_, Build.compile_eq parse_selfImport _, ?_⟩
    exact (run_error_iff (l := tearing) (m := torn) rfl).2 (interpret_tearing _)

end Loader

end CodeCache
