import CodeCache.Proofs.Opening
import CodeCache.Sample

/-! # Running compiled blobs

A patch that keeps to the build words does not touch what a compiled blob holds of its source. If
the engine compiled the blob itself then running it is running the source. If another engine did
then the blob is accepted when every checked byte is patched or the same in both builds, and running
it is running the blob that this engine would have compiled. -/

namespace CodeCache

namespace Loader

variable {l : Loader} {v : Version} {reference : Bytes}

section

variable {script : Script} {units : Nat} {f : Blob.Fingerprint}

theorem seals_patched (within : l.config.table.Within 12 24) :
    Blob.Seals (l.patched v reference (Blob.encode script units f)) script units := by
  refine (Blob.seals_encode script units f).of_outside (length_patched l v reference _) ?_
  intro i outside
  exact getElem?_patched_of_outside within outside _

/-- A byte of a build word is the one of the running engine where the patch covers it. -/
theorem getElem?_patched (hr : l.build.compile l.config.referenceSource = .ok reference) {i : Nat}
    (low : 12 ≤ i) (high : i < 24) :
    (l.patched v reference (Blob.encode script units f))[i]? =
      if l.config.table.Covers v i then l.build.fingerprint.bytes[i - 12]?
      else f.bytes[i - 12]? := by
  obtain ⟨referenceScript, _, rfl⟩ := Build.compile_eq_ok hr
  have long := (Blob.seals_encode script units f).complete
  have longReference := (Blob.seals_encode referenceScript
    (Text.units16 l.config.referenceSource) l.build.fingerprint).complete
  simp only [Header.size] at long longReference
  rw [patched, Patch.Table.getElem?_patch, Blob.getElem?_encode _ _ _ low high,
    Blob.getElem?_encode _ _ _ low high]
  by_cases covered : l.config.table.Covers v i
  · rw [if_pos ⟨covered, by omega, by omega⟩, if_pos covered]
  · rw [if_neg (fun h => covered h.1), if_neg covered]

/-- Every checked byte is patched or the same in both builds. -/
def Agrees (l : Loader) (v : Version) (f : Blob.Fingerprint) : Prop :=
  ∀ o ∈ l.build.checkedOffsets, ∀ i, o ≤ i → i < o + 4 →
    l.config.table.Covers v i ∨ f.bytes[i - 12]? = l.build.fingerprint.bytes[i - 12]?

theorem agrees_own (l : Loader) (v : Version) : l.Agrees v l.build.fingerprint :=
  fun _ _ _ _ _ => .inr rfl

/-- A checked word is patched right exactly when each of its bytes is. -/
theorem accepts_patched_iff {version : String} {number : UInt64}
    (hb : l.build = .ofVersion version number)
    (hr : l.build.compile l.config.referenceSource = .ok reference)
    (within : l.config.table.Within 12 24) (notOne : units ≠ 1)
    (small : units ≤ Header.maxSourceLength.toNat)
    (read : Payload.decode (Payload.encode script) = some script) :
    l.build.Accepts (l.patched v reference (Blob.encode script units f)) ↔ l.Agrees v f := by
  have sealed : Blob.Seals (l.patched v reference (Blob.encode script units f)) script units :=
    seals_patched within
  have own := Blob.seals_encode script units l.build.fingerprint
  rw [sealed.accepts_iff notOne small read]
  refine forall₂_congr fun o ho => ?_
  have offset : o = 12 ∨ o = 16 ∨ o = 20 := by
    rw [hb] at ho
    exact Build.mem_offsetsFor ho
  have long := sealed.complete
  have ownLong := own.complete
  simp only [Header.size] at long ownLong
  rw [Blob.word_encode script units l.build.fingerprint offset, Option.some_inj,
    Bytes.word_eq_iff (by omega) (by omega)]
  refine forall₃_congr fun i low high => ?_
  rw [Blob.getElem?_encode _ _ _ (by omega) (by omega), getElem?_patched hr (by omega) (by omega)]
  split
  · simp_all
  · rename_i uncovered
    rw [or_iff_right uncovered]
    exact eq_comm

end

/-- The module that the next run makes is made from the blob. -/
def Takes (l : Loader) (context : Option String) (blob : Bytes) (s : State) : Prop :=
  ∃ r : ModuleRecord, ((l.run context (.bytes blob)).run s).2.modules[s.modules.length]? = some r ∧
    r.rejection = none

section

variable {version : String} {number : UInt64} {source : String} {script : Script}
  {f : Blob.Fingerprint} (hb : l.build = .ofVersion version number)
  (hr : l.build.compile l.config.referenceSource = .ok reference)
  (within : l.config.table.Within 12 24) (parsed : Script.parse source = .ok script)
  (notOne : Text.units16 source ≠ 1)
  (small : Text.units16 source ≤ Header.maxSourceLength.toNat)

include hb hr within parsed notOne small

theorem decode_patched (agrees : l.Agrees v f) :
    ∃ p, Placeholder.ofBlob (l.patched v reference
        (Blob.encode script (Text.units16 source) f)) = .ok p ∧
      p.length = Text.units16 source ∧
      Blob.decode (l.patched v reference (Blob.encode script (Text.units16 source) f)) p.length
        l.build.fingerprint l.build.checkedOffsets = .ok script := by
  have read := Script.decode_encode_parse parsed small
  have accepted := (accepts_patched_iff hb hr within notOne small read).2 agrees
  exact (seals_patched within).decode notOne small read accepted

theorem refused_of_not_agrees (hv : Version.parse? l.build.version = some v)
    (differs : ¬l.Agrees v f) (context : Option String) (s : State) :
    ((l.run context (.bytes (Blob.encode script (Text.units16 source) f))).run s).1 =
        .error (.cacheRejected none) ∧
      ¬l.Takes context (Blob.encode script (Text.units16 source) f) s := by
  have read := Script.decode_encode_parse parsed small
  have refused := mt (accepts_patched_iff (f := f) hb hr within notOne small read).1 differs
  have sealed : Blob.Seals (l.patched v reference (Blob.encode script (Text.units16 source) f))
      script (Text.units16 source) := seals_patched within
  obtain ⟨p, placeholder, _⟩ := sealed.ofBlob_eq notOne small
  obtain ⟨rejection, decoded⟩ := Build.decode_of_not_accepts refused placeholder
  have run := run_bytes_of_refused hv hr placeholder decoded context s
  constructor
  · exact congrArg Prod.fst run
  · rintro ⟨r, found, clean⟩
    rw [run] at found
    cases found.symm.trans (getElem?_made (l.compiled s) p.length _ _)
    cases clean

end

def runDirect (l : Loader) (source : String) (context : Option String) : Action ModuleId := do
  finish (l.resolveImport l.runPath) (← State.sourceModule l.build (.text source) none context)

theorem runDirect_eq {source : String} {script : Script} (parsed : Script.parse source = .ok script)
    (context : Option String) (s : State) :
    (l.runDirect source context).run s =
      (finish (l.resolveImport l.runPath) s.modules.length).run
        { s with
          modules := s.modules ++ [{ body := .source script, context }]
          events := s.events ++
            [.source (Text.units16 source) none context s.modules.length] } := by
  have body : State.instantiate l.build (.text source) none = .ok (.source script, none) := by
    simp [State.instantiate, Source.compile, parsed, Except.map]
  exact Action.run_bind_ok (State.run_sourceModule body context s)

/-- Running the blob of a source does what running the source does. -/
theorem run_compiled {version : String} {number : UInt64}
    (hb : l.build = .ofVersion version number) (hv : Version.parse? l.build.version = some v)
    (hr : l.build.compile l.config.referenceSource = .ok reference)
    (within : l.config.table.Within 12 24) {source : String} {script : Script}
    (parsed : Script.parse source = .ok script) (notOne : Text.units16 source ≠ 1)
    (small : Text.units16 source ≤ Header.maxSourceLength.toNat) (context : Option String)
    (s : State) :
    ∃ blob, l.build.compile source = .ok blob ∧
      let cached := (l.run context (.bytes blob)).run s
      let direct := (l.runDirect source context).run s
      cached.1 = direct.1 ∧ cached.2.modules = direct.2.modules ∧
        cached.2.contexts = direct.2.contexts ∧ cached.2.requests = direct.2.requests ∧
        ∃ r : ModuleRecord, cached.2.modules[s.modules.length]? = some r ∧
          r.body = .source script ∧ r.context = context ∧ r.rejection = none := by
  obtain ⟨p, placeholder, length, decoded⟩ :=
    decode_patched hb hr within parsed notOne small (agrees_own l v)
  refine ⟨_, l.build.compile_eq parsed, ?_⟩
  intro cached direct
  have cachedRun : cached = _ := run_bytes_of_accepted hv hr placeholder decoded context s
  have directRun : direct = _ := runDirect_eq parsed context s
  -- The two runs start in states that differ in the recorded calls only.
  obtain ⟨later, same⟩ := blind_stepwise.finish (blind_stepwise.resolveBlob l) s.modules.length
    { s with
      modules := s.modules ++ [{ body := .source script, context }]
      events := s.events ++ [.source (Text.units16 source) none context s.modules.length] }
    (made (l.compiled s) p.length
      (Blob.encode script (Text.units16 source) l.build.fingerprint).length
      { body := .source script, context }).events
  have equal : cached = (direct.1, { direct.2 with events := later }) := by
    rw [cachedRun, directRun]
    exact same
  refine ⟨?_, ?_, ?_, ?_, source_of_run_bytes hv hr placeholder decoded context s⟩
  · rw [equal]
  · rw [equal]
  · rw [equal]
  · rw [equal]

theorem parse_answer : Script.parse Sample.answer = .ok { body := [.exportDefault (.int 42)] } := by
  cbv

/-- The plain loader makes one evaluated module from the blob of the answer. -/
theorem run_compiled_answer :
    ∃ blob, (plain 1).build.compile Sample.answer = .ok blob ∧
      (((plain 1).run none (.bytes blob)).run {}).1 = .ok 0 ∧
      (((plain 1).run none (.bytes blob)).run {}).2.modules =
        [{ body := .source { body := [.exportDefault (.int 42)] }, context := none
           status := .evaluated, exports := [("default", .int 42)] }] := by
  obtain ⟨blob, compiled, outcome, modules, _⟩ := run_compiled (l := plain 1) rfl (plain_version 1)
    (plain_reference 1) Patch.Table.builtin_within parse_answer (by decide) (by decide) none {}
  have direct := runDirect_eq (l := plain 1) parse_answer none {}
  exact ⟨blob, compiled, outcome.trans (congrArg Prod.fst direct),
    modules.trans (congrArg (·.2.modules) direct)⟩

/-- The built-in table covers the words that an engine of the version checks. -/
theorem covers_of_builtin {version : String} {o i : Nat} (hv : Version.parse? version = some v)
    (ho : o ∈ Build.offsetsFor version) (low : o ≤ i) (high : i < o + 4) :
    Patch.Table.builtin.Covers v i := by
  -- Every range consists of whole words, so that none of them reaches over its end.
  have whole : ∀ recipe ∈ Patch.Table.builtin.recipes, ∀ range ∈ recipe.ranges,
      4 ∣ range.stop.toNat - range.start.toNat := by decide
  rw [Build.offsetsFor, hv, Option.bind_eq_bind, Option.bind_some] at ho
  cases taken : Patch.Table.builtin.select v with
  | none =>
    have fallback := List.find?_eq_none.1 taken
    simp [Patch.Table.builtin, Patch.Recipe.applies, Patch.Predicate.holds] at fallback
  | some recipe =>
    rw [taken] at ho
    obtain ⟨range, member, starts⟩ := List.mem_flatMap.1 (List.mem_filter.1 ho).1
    obtain ⟨first, last, aligned⟩ := Build.mem_wordStarts.1 starts
    have size := whole recipe (List.mem_of_find?_eq_some taken) range member
    exact ⟨recipe, taken, range, member, by omega, by omega⟩

theorem agrees_of_builtin {version : String} {number : UInt64}
    (hb : l.build = .ofVersion version number) (hv : Version.parse? l.build.version = some v)
    (builtin : l.config.table = .builtin) (f : Blob.Fingerprint) : l.Agrees v f := by
  intro o ho i low high
  rw [builtin]
  rw [hb] at ho hv
  exact .inl (covers_of_builtin hv ho low high)

/-- A blob that any engine compiled is taken exactly when every checked byte is patched or the same
in both builds, and running it then is running the engine's own blob of the source. -/
theorem run_foreign {version : String} {number : UInt64} (hb : l.build = .ofVersion version number)
    (hv : Version.parse? l.build.version = some v)
    (hr : l.build.compile l.config.referenceSource = .ok reference)
    (within : l.config.table.Within 12 24) {source : String} {script : Script}
    (parsed : Script.parse source = .ok script) (notOne : Text.units16 source ≠ 1)
    (small : Text.units16 source ≤ Header.maxSourceLength.toNat) (producer : Build)
    (context : Option String) (s : State) :
    ∃ foreign own, producer.compile source = .ok foreign ∧ l.build.compile source = .ok own ∧
      (l.Takes context foreign s ↔
        ∀ o ∈ l.build.checkedOffsets, ∀ i, o ≤ i → i < o + 4 → l.config.table.Covers v i ∨
          producer.fingerprint.bytes[i - 12]? = l.build.fingerprint.bytes[i - 12]?) ∧
      (l.Takes context foreign s →
        (l.run context (.bytes foreign)).run s = (l.run context (.bytes own)).run s) ∧
      (¬l.Takes context foreign s →
        ((l.run context (.bytes foreign)).run s).1 = .error (.cacheRejected none)) ∧
      (l.config.table = .builtin → l.Takes context foreign s) := by
  have refused (differs : ¬l.Agrees v producer.fingerprint) :=
    refused_of_not_agrees hb hr within parsed notOne small hv differs context s
  have takes : l.Takes context (Blob.encode script (Text.units16 source) producer.fingerprint) s ↔
      l.Agrees v producer.fingerprint := by
    constructor
    · intro takes
      by_contra differs
      exact (refused differs).2 takes
    · intro agrees
      obtain ⟨p, placeholder, _, decoded⟩ :=
        decode_patched hb hr within parsed notOne small agrees
      obtain ⟨r, found, _, _, clean⟩ := source_of_run_bytes hv hr placeholder decoded context s
      exact ⟨r, found, clean⟩
  refine ⟨_, _, producer.compile_eq parsed, l.build.compile_eq parsed, takes, ?_, ?_, ?_⟩
  · intro taken
    obtain ⟨p, placeholder, length, decoded⟩ :=
      decode_patched hb hr within parsed notOne small (takes.1 taken)
    obtain ⟨q, placeholder', length', decoded'⟩ :=
      decode_patched hb hr within parsed notOne small (agrees_own l v)
    rw [run_bytes_of_accepted hv hr placeholder decoded,
      run_bytes_of_accepted hv hr placeholder' decoded', length, length', Blob.length_encode,
      Blob.length_encode]
  · intro untaken
    exact (refused (mt takes.2 untaken)).1
  · intro builtin
    exact takes.2 (agrees_of_builtin hb hv builtin producer.fingerprint)

def recipeless : Loader := { plain 1 with config := { patchRecipes := some [] } }

/-- The plain loader takes the blob of the answer from a build of another version, and a loader
without recipes refuses it. -/
theorem run_foreign_answer :
    (Build.ofVersion "v18.0.0" 7).fingerprint ≠ (plain 1).build.fingerprint ∧
      ∃ foreign own, (Build.ofVersion "v18.0.0" 7).compile Sample.answer = .ok foreign ∧
        (plain 1).build.compile Sample.answer = .ok own ∧ (plain 1).Takes none foreign {} ∧
        ((plain 1).run none (.bytes foreign)).run {} =
          ((plain 1).run none (.bytes own)).run {} ∧
        ¬recipeless.Takes none foreign {} ∧
        ((recipeless.run none (.bytes foreign)).run {}).1 = .error (.cacheRejected none) := by
  refine ⟨by decide +kernel, ?_⟩
  obtain ⟨foreign, own, produced, compiled, _, same, _, builtin⟩ := run_foreign (l := plain 1) rfl
    (plain_version 1) (plain_reference 1) Patch.Table.builtin_within parse_answer (by decide)
    (by decide) (.ofVersion "v18.0.0" 7) none {}
  obtain ⟨foreign', _, produced', _, takes, _, refused, _⟩ := run_foreign (l := recipeless) rfl
    (plain_version 1) (plain_reference 1) nofun parse_answer (by decide) (by decide)
    (.ofVersion "v18.0.0" 7) none {}
  cases produced.symm.trans produced'
  have checked : 12 ∈ recipeless.build.checkedOffsets := by
    show 12 ∈ Build.offsetsFor (plain 1).build.version
    rw [Build.offsetsFor_of_parse (plain_version 1)]
    decide
  have differs : (Build.ofVersion "v18.0.0" 7).fingerprint.bytes[0]? ≠
      recipeless.build.fingerprint.bytes[0]? := by decide +kernel
  have untaken : ¬recipeless.Takes none foreign {} := by
    intro taken
    rcases takes.1 taken 12 checked 12 (by decide) (by decide) with ⟨_, selected, _⟩ | agrees
    · cases selected
    · exact differs agrees
  exact ⟨foreign, own, produced, compiled, builtin rfl, same (builtin rfl), untaken,
    refused untaken⟩

end Loader

end CodeCache
