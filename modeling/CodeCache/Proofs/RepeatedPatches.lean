import CodeCache.Proofs.DiskCommands
import Mathlib.Data.List.Find

/-! # Patching again

The output of a patch may be the blob, the reference or both, under any spelling of their paths. The
same command run once more then reads other bytes than before, and perhaps more or fewer of them. It
makes the same output from them, as long as it finds the same configuration. -/

namespace CodeCache

namespace Patch

variable (r : Recipe) (blob reference : Bytes)

/-- The patched blob can lend the bytes as well as the reference. -/
theorem Recipe.apply_patched_reference :
    r.apply blob (r.apply blob reference) = r.apply blob reference := by
  apply List.ext_getElem?
  intro i
  rw [getElem?_apply, length_apply]
  split
  · rfl
  · rename_i kept
    have untouched : ¬(r.Covers i ∧ i < blob.length ∧ i < reference.length) :=
      fun copied => kept ⟨copied.1, copied.2.1, copied.2.1⟩
    rw [getElem?_apply, if_neg untouched]

theorem Recipe.apply_self : r.apply blob blob = blob := by
  apply List.ext_getElem?
  intro i
  rw [getElem?_apply, ite_self]

/-- Either input, or both, may have been replaced by the output. -/
theorem Recipe.apply_again {blob' reference' : Bytes}
    (first : blob' = r.apply blob reference ∨ blob' = blob)
    (second : reference' = r.apply blob reference ∨ reference' = reference) :
    r.apply blob' reference' = r.apply blob reference := by
  rcases first with rfl | rfl <;> rcases second with rfl | rfl
  · exact r.apply_self _
  · exact r.apply_apply blob reference'
  · exact r.apply_patched_reference blob' reference
  · rfl

end Patch

namespace Disk

variable {d d' : Disk} {l : Location} {p q : Path} {content bytes : Bytes}

def Aliases (d : Disk) (p q : Path) : Prop := ∃ l, d.locate p = .ok l ∧ d.locate q = .ok l

instance (d : Disk) (p q : Path) : Decidable (d.Aliases p q) :=
  decidable_of_iff (∃ l ∈ (d.locate p).toOption, d.locate q = .ok l) <| by
    rw [Aliases]
    cases d.locate p <;> simp [Except.toOption]

theorem replace_replace (l : Location) (node : Node) (nodes : List (Location × Node)) :
    replace l node (replace l node nodes) = replace l node nodes := by
  induction nodes with
  | nil => simp [replace]
  | cons e es ih => by_cases here : e.1 = l <;> simp [replace, here, ih]

theorem put_eq_ok_iff : d.put p content = .ok d' ↔
    withoutSlashes p.parts = p.parts ∧ ∃ l, d.locate p = .ok l ∧ d.node? l ≠ some .directory ∧
      d' = d.set l (.file content) := by
  constructor
  · intro h
    refine ⟨?_, put_eq_ok h⟩
    by_cases slashes : withoutSlashes p.parts = p.parts
    · exact slashes
    · simp only [put, ne_eq, slashes, not_false_eq_true, if_true] at h
      obtain ⟨_, _, h⟩ := bind_eq_ok.1 h
      cases h
  · rintro ⟨slashes, l, located, free, rfl⟩
    simp only [put, ne_eq, slashes, not_true_eq_false, if_false, located, Bind.bind, Except.bind]
    rfl

theorem node?_put (h : d.put p content = .ok d') (located : d.locate p = .ok l) (k : Location) :
    d'.node? k = if l = k then some (.file content) else d.node? k := by
  obtain ⟨l', located', nodes⟩ := (writes_of_put h).only
  cases located.symm.trans located'
  exact nodes k

theorem locate_of_put (h : d.put p content = .ok d') (q : Path) (k : Location) :
    d'.locate q = .ok k ↔ d.locate q = .ok k := by
  obtain ⟨l, located, free, _⟩ := put_eq_ok h
  constructor
  · refine locate_of_directories fun k directory => ?_
    rw [node?_put h located] at directory
    split at directory
    · cases directory
    · exact directory
  · refine locate_of_directories fun k directory => ?_
    have other : l ≠ k := by
      rintro rfl
      exact free directory
    rw [node?_put h located, if_neg other, directory]

theorem put_again (h : d.put p content = .ok d') : d'.put p content = .ok d' := by
  obtain ⟨slashes, l, located, free, made⟩ := put_eq_ok_iff.1 h
  refine put_eq_ok_iff.2 ⟨slashes, l, (locate_of_put h p l).2 located, ?_, ?_⟩
  · rw [node?_put h located, if_pos rfl]
    nofun
  · rw [made, set, set, replace_replace]

theorem node?_of_put (h : d.put p content = .ok d') (other : ¬d.Aliases p q) {k : Location}
    (found : d.locate q = .ok k) : d'.node? k = d.node? k := by
  obtain ⟨l, located, _⟩ := put_eq_ok h
  have apart : l ≠ k := by
    rintro rfl
    exact other ⟨l, located, found⟩
  rw [node?_put h located, if_neg apart]

theorem entry?_of_put (h : d.put p content = .ok d') (other : ¬d.Aliases p q) :
    d'.entry? q = d.entry? q := by
  have same := locate_of_put h q
  unfold entry?
  cases found : d.locate q with
  | ok k =>
    rw [(same k).2 found]
    exact node?_of_put h other found
  | error e =>
    cases found' : d'.locate q with
    | ok k => cases found.symm.trans ((same k).1 found')
    | error e' => rfl

theorem read_eq_ok :
    d.read q = .ok bytes ↔ ∃ k, d.locate q = .ok k ∧ d.node? k = some (.file bytes) := by
  rw [read, bind_eq_ok]
  refine exists_congr fun k => and_congr_right fun _ => ?_
  rcases d.node? k with _ | _ | _ <;> simp

theorem read_of_put (h : d.put p content = .ok d') (other : ¬d.Aliases p q)
    (before : d.read q = .ok bytes) : d'.read q = .ok bytes := by
  obtain ⟨k, found, file⟩ := read_eq_ok.1 before
  refine read_eq_ok.2 ⟨k, (locate_of_put h q k).2 found, ?_⟩
  rw [node?_of_put h other found, file]

theorem read_of_aliases (h : d.put p content = .ok d') (same : d.Aliases p q) :
    d'.read q = .ok content := by
  obtain ⟨k, located, found⟩ := same
  exact read_eq_ok.2 ⟨k, (locate_of_put h q k).2 found, by rw [node?_put h located, if_pos rfl]⟩

/-- A file that could be read can be read again, if only with the content that was put. -/
theorem read_after_put (h : d.put p content = .ok d') (before : d.read q = .ok bytes) :
    ∃ bytes', d'.read q = .ok bytes' ∧ (bytes' = content ∨ bytes' = bytes) := by
  by_cases same : d.Aliases p q
  · exact ⟨content, read_of_aliases h same, .inl rfl⟩
  · exact ⟨bytes, read_of_put h same before, .inr rfl⟩

end Disk

namespace CommandLine

open Patch (Recipe)

variable {d d' : Disk} {config : Config} {project : Option Path}

def configFiles : Option Path → List Path
  | some p => [p]
  | none => projectFiles

theorem run_need {ε α : Type} (wrap : ε → Failure) (outcome : Except ε α) (d : Disk) :
    (need wrap outcome : ExceptT Failure (StateM Disk) α).run d = (outcome.mapError wrap, d) := by
  cases outcome <;> rfl

theorem run_firstPresent (files : List Path) (d : Disk) :
    (firstPresent Disk.access files).run d = (files.find? fun p => (d.entry? p).isSome, d) := by
  induction files with
  | nil => rfl
  | cons p files ih =>
    show ((if (d.entry? p).isSome then pure (some p) else
      firstPresent Disk.access files : StateM Disk (Option Path)).run d) = _
    rw [List.find?_cons]
    cases present : (d.entry? p).isSome with
    | true =>
      rw [if_pos rfl]
      rfl
    | false =>
      rw [if_neg Bool.false_ne_true]
      exact ih

/-- The file that the configuration is read from. -/
def configFile? (d : Disk) : Option Path → Option Path
  | some p => some p
  | none => projectFiles.find? fun p => (d.entry? p).isSome

def configOf (d : Disk) (project : Option Path) : Except Failure Config :=
  match configFile? d project with
  | none => .ok {}
  | some p => (Config.ofFile p (d.read p)).mapError (.configUnreadable p)

theorem run_loadConfig (project : Option Path) (d : Disk) :
    (loadConfig Disk.access project).run d = (configOf d project, d) := by
  have fromFile (p : Path) :
      (do need (.configUnreadable p) (Config.ofFile p (← Disk.access.read p)) :
        ExceptT Failure (StateM Disk) Config).run d =
          ((Config.ofFile p (d.read p)).mapError (.configUnreadable p), d) :=
    run_need _ _ d
  cases project with
  | some p => exact fromFile p
  | none =>
    have looked : (liftM (firstPresent Disk.access projectFiles) :
        ExceptT Failure (StateM Disk) (Option Path)).run d = (.ok (configFile? d none), d) := by
      show (firstPresent Disk.access projectFiles >>= fun file => pure (.ok file) :
        StateM Disk (Except Failure (Option Path))).run d = _
      rw [StateT.run_bind, run_firstPresent]
      rfl
    rw [loadConfig, configOf, Action.run_bind_ok looked]
    cases configFile? d none with
    | none => rfl
    | some p => exact fromFile p

theorem configFile?_mem {file : Path} (h : configFile? d project = some file) :
    file ∈ configFiles project := by
  cases project with
  | some p =>
    cases h
    exact List.mem_singleton_self _
  | none =>
    have found : projectFiles.find? (fun p => (d.entry? p).isSome) = some file := h
    exact List.mem_of_find?_eq_some found

/-- The configuration is the same after a file was put that it is not read from. -/
theorem configOf_of_put {p : Path} {content : Bytes} (put : d.put p content = .ok d')
    (apart : ∀ file ∈ configFiles project, ¬d.Aliases p file)
    (configured : configOf d project = .ok config) : configOf d' project = .ok config := by
  have same : configFile? d' project = configFile? d project := by
    cases project with
    | some file => rfl
    | none =>
      rw [configFile?, configFile?]
      refine List.find?_congr fun file listed => ?_
      rw [Disk.entry?_of_put put (apart file listed)]
  rw [configOf, same]
  rw [configOf] at configured
  cases chosen : configFile? d project with
  | none =>
    rw [chosen] at configured
    exact configured
  | some file =>
    simp only [chosen] at configured ⊢
    cases content : d.read file with
    | error e =>
      rw [content] at configured
      cases configured
    | ok bytes =>
      rw [content] at configured
      rw [Disk.read_of_put put (apart file (configFile?_mem chosen)) content]
      exact configured

theorem run_loadConfig_eq_ok :
    (loadConfig Disk.access project).run d = (.ok config, d') ↔
      configOf d project = .ok config ∧ d' = d := by
  rw [run_loadConfig, Prod.ext_iff]
  exact and_congr_right fun _ => eq_comm

theorem run_readBlob_eq_ok {p : Path} {blob : Bytes} :
    (readBlob Disk.access p).run d = (.ok blob, d') ↔ d.read p = .ok blob ∧ d' = d := by
  have read : (readBlob Disk.access p).run d = ((d.read p).mapError (.unreadable p), d) :=
    run_need _ _ d
  rw [read, Prod.ext_iff]
  cases d.read p <;> simp [Except.mapError, eq_comm]

theorem run_version_eq_ok {text : String} {v : Version} :
    (version text : ExceptT Failure (StateM Disk) Version).run d = (.ok v, d') ↔
      Version.parse? text = some v ∧ d' = d := by
  rw [version, Prod.ext_iff]
  cases Version.parse? text <;> simp [eq_comm]

theorem run_write_eq_ok {p : Path} {content : Bytes} {wrap : StorageError → Failure}
    {text text' : String} :
    (do
      need wrap (← Disk.access.write p content)
      return text : ExceptT Failure (StateM Disk) String).run d = (.ok text', d') ↔
        d.put p content = .ok d' ∧ text' = text := by
  have wrote : (liftM (Disk.access.write p content) :
      ExceptT Failure (StateM Disk) (Except StorageError Unit)).run d =
        (.ok (d.overwrite p content).1, (d.overwrite p content).2) := rfl
  rw [Action.run_bind_ok wrote, Disk.overwrite, Prod.ext_iff]
  cases d.put p content with
  | error e => simp [need]
  | ok u => simp [need, and_comm, eq_comm]

/-- A patch succeeds exactly if all of its steps do. -/
theorem run_patch_eq_ok {p referencePath : Path} {engineVersion text : String}
    {output : Option Path} :
    (patch Disk.access p referencePath engineVersion output project).run d = (.ok text, d') ↔
      ∃ config v recipe blob reference,
        configOf d project = .ok config ∧ Version.parse? engineVersion = some v ∧
        config.table.select v = some recipe ∧ d.read p = .ok blob ∧
        d.read referencePath = .ok reference ∧
        d.put (output.getD p) (recipe.apply blob reference) = .ok d' ∧
        text = s!"Patched {(output.getD p).text} using recipe '{recipe.name}'\n" := by
  simp only [patch, Action.run_bind_eq_ok, run_loadConfig_eq_ok, run_version_eq_ok,
    run_readBlob_eq_ok]
  constructor
  · rintro ⟨config, _, ⟨configured, rfl⟩, v, _, ⟨parsed, rfl⟩, blob, _, ⟨given, rfl⟩, reference, _,
      ⟨lent, rfl⟩, run⟩
    cases selected : config.table.select v with
    | none =>
      rw [Patch.Table.patch, selected] at run
      cases run
    | some recipe =>
      rw [Patch.Table.patch, selected] at run
      obtain ⟨written, rfl⟩ := run_write_eq_ok.1 run
      exact ⟨config, v, recipe, blob, reference, configured, parsed, selected, given, lent, written,
        rfl⟩
  · rintro ⟨config, v, recipe, blob, reference, configured, parsed, selected, given, lent, written,
      rfl⟩
    refine ⟨config, d, ⟨configured, rfl⟩, v, d, ⟨parsed, rfl⟩, blob, d, ⟨given, rfl⟩, reference, d,
      ⟨lent, rfl⟩, ?_⟩
    rw [Patch.Table.patch, selected]
    exact run_write_eq_ok.2 ⟨written, rfl⟩

theorem run_eq_zero {args : List String} {command : Command} {outcome : Outcome}
    (denoted : Command.read? args = some command)
    (ran : (run Disk.access args).run d = (outcome, d')) (zero : outcome.exitStatus = 0) :
    ∃ text, (command.perform Disk.access).run d = (.ok text, d') ∧
      outcome = { exitStatus := 0, output := text } := by
  cases performed : (command.perform Disk.access).run d with
  | mk result t =>
    cases result with
    | error failure =>
      rw [run_of_error denoted performed] at ran
      cases ran
      cases zero
    | ok text =>
      rw [run_of_ok denoted performed] at ran
      cases ran
      exact ⟨text, rfl, rfl⟩

/-- A patch that succeeds can be repeated: the second run says the same and leaves the disk as the
first one left it. The output may be any file but one that the configuration is read from. -/
theorem run_patch_again {d d' : Disk} {args : List String} {p referencePath : Path}
    {engineVersion : String} {output project : Option Path} {outcome : Outcome}
    (denoted : Command.read? args = some (.patch p referencePath engineVersion output project))
    (apart : ∀ file ∈ configFiles project, ¬d.Aliases (output.getD p) file)
    (ran : (run Disk.access args).run d = (outcome, d')) (zero : outcome.exitStatus = 0) :
    (run Disk.access args).run d' = (outcome, d') := by
  obtain ⟨text, performed, rfl⟩ := run_eq_zero denoted ran zero
  obtain ⟨config, v, recipe, blob, reference, configured, parsed, selected, given, lent, written,
    rfl⟩ := run_patch_eq_ok.1 performed
  obtain ⟨blob', given', fromBlob⟩ := Disk.read_after_put written given
  obtain ⟨reference', lent', fromReference⟩ := Disk.read_after_put written lent
  have same := recipe.apply_again blob reference fromBlob fromReference
  refine run_of_ok denoted (run_patch_eq_ok.2 ⟨config, v, recipe, blob', reference',
    configOf_of_put written apart configured, parsed, selected, given', lent', ?_, rfl⟩)
  rw [same]
  exact Disk.put_again written

/-- The output replaces a reference that is longer than the blob, under another spelling of its
path, and then the blob has nothing to be patched with beyond its own end. -/
theorem run_patch_again_reference :
    let files : Disk := ⟨[
      (⟨.above 0, ["app.jsc"]⟩, .file (List.replicate 14 1)),
      (⟨.above 0, ["own.jsc"]⟩, .file (List.replicate 30 2))]⟩
    let args := ["patch", "app.jsc", "--reference", "own.jsc", "-o", ".//own.jsc",
      "--engine-version", "v20.0.0"]
    let result := (run Disk.access args).run files
    (∀ file ∈ configFiles none, ¬files.Aliases ⟨".//own.jsc"⟩ file) ∧ result.1.exitStatus = 0 ∧
      result.2.read ⟨"own.jsc"⟩ = .ok (List.replicate 12 1 ++ List.replicate 2 2) ∧
      (run Disk.access args).run result.2 = result := by
  intro files args result
  have denoted : Command.read? args = some (.patch ⟨"app.jsc"⟩ ⟨"own.jsc"⟩ "v20.0.0"
    (some ⟨".//own.jsc"⟩) none) := by decide
  have apart : ∀ file ∈ configFiles none, ¬files.Aliases ⟨".//own.jsc"⟩ file := by decide +kernel
  have patched : result.1.exitStatus = 0 := by decide +kernel
  exact ⟨apart, patched, by decide +kernel, run_patch_again denoted apart rfl patched⟩

end CommandLine

end CodeCache
