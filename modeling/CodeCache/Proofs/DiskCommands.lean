import CodeCache.CommandLine.Run
import CodeCache.Proofs.Computation
import CodeCache.Proofs.Overlay

/-! # What commands do to a disk

All but the last step of a command only look at the disk, and the last one may write one file. A
command that fails has therefore changed nothing, and one that succeeds has changed no more than the
file that it was to write. -/

namespace CodeCache

namespace Disk

variable {d d' : Disk} {l : Location} {p : Path} {content : Bytes}

structure Writes (d : Disk) (p : Path) (content : Bytes) (d' : Disk) : Prop where
  only : ∃ l, d.locate p = .ok l ∧
    ∀ k, d'.node? k = if l = k then some (.file content) else d.node? k
  read : d'.read p = .ok content

theorem put_eq_ok (h : d.put p content = .ok d') :
    ∃ l, d.locate p = .ok l ∧ d.node? l ≠ some .directory ∧ d' = d.set l (.file content) := by
  rw [put] at h
  by_cases slashes : withoutSlashes p.parts = p.parts
  · simp only [slashes, ne_eq, not_true_eq_false, if_false] at h
    obtain ⟨l, located, h⟩ := bind_eq_ok.1 h
    refine ⟨l, located, ?_⟩
    by_cases directory : d.node? l = some .directory
    · rw [directory] at h
      cases h
    · refine ⟨directory, ?_⟩
      split at h
      · contradiction
      · cases h
        rfl
  · simp only [slashes, ne_eq, not_false_eq_true, if_true] at h
    obtain ⟨_, _, h⟩ := bind_eq_ok.1 h
    cases h

theorem walk_eq_ok {parts : List String} :
    d.walk p parts = .ok l ↔ '\x00' ∉ p.text.toList ∧ p.text ≠ "" ∧
      p.text.utf8ByteSize ≤ maxPathSize ∧
      parts.foldlM d.step ⟨if p.isAbsolute then .root else .above 0, []⟩ = .ok l := by
  rw [walk]
  by_cases nul : '\x00' ∈ p.text.toList
  · simp [nul]
  by_cases empty : p.text = ""
  · simp [empty]
  by_cases long : maxPathSize < p.text.utf8ByteSize
  · simp [nul, empty, long, Nat.not_le_of_lt long]
  · simp [nul, empty, long, Nat.le_of_not_lt long]

theorem step_of_directories
    (kept : ∀ k, d.node? k = some .directory → d'.node? k = some .directory) {start : Location}
    {part : String} (h : d.step start part = .ok l) : d'.step start part = .ok l := by
  rw [step] at h ⊢
  cases node : d.node? start with
  | none =>
    rw [node] at h
    cases h
  | some found =>
    rw [node] at h
    cases found with
    | file content => cases h
    | directory =>
      rw [kept start node]
      exact h

/-- A path is followed through directories only, so that it leads to the same place on every disk
that has the same directories. -/
theorem locate_of_directories
    (kept : ∀ k, d.node? k = some .directory → d'.node? k = some .directory)
    (h : d.locate p = .ok l) : d'.locate p = .ok l := by
  have followed {parts : List String} {start : Location}
      (h : parts.foldlM d.step start = .ok l) : parts.foldlM d'.step start = .ok l := by
    induction parts generalizing start with
    | nil => exact h
    | cons part parts ih =>
      obtain ⟨next, stepped, h⟩ := foldlM_cons_eq_ok.1 h
      exact foldlM_cons_eq_ok.2 ⟨next, step_of_directories kept stepped, ih h⟩
  rw [locate, walk_eq_ok] at h ⊢
  obtain ⟨noNul, notEmpty, short, h⟩ := h
  exact ⟨noNul, notEmpty, short, followed h⟩

theorem writes_of_put (h : d.put p content = .ok d') : d.Writes p content d' := by
  obtain ⟨l, located, free, rfl⟩ := put_eq_ok h
  have named : l.names ≠ [] := by
    intro empty
    exact free (if_pos empty)
  have nodes (k : Location) := node?_set d l k (.file content) named
  refine ⟨⟨l, located, nodes⟩, ?_⟩
  have kept : ∀ k, d.node? k = some .directory →
      (d.set l (.file content)).node? k = some .directory := by
    intro k directory
    have other : l ≠ k := by
      rintro rfl
      exact free directory
    rw [nodes k, if_neg other, directory]
  have there := locate_of_directories kept located
  have holds : (d.set l (.file content)).node? l = some (.file content) := by
    rw [nodes l, if_pos rfl]
  rw [read, bind_eq_ok]
  exact ⟨l, there, by rw [holds]⟩

end Disk

namespace CommandLine

variable {α β : Type} {d d' : Disk}

def Quiet (a : ExceptT Failure (StateM Disk) α) : Prop := ∀ d, (a.run d).2 = d

theorem quiet_pure (x : α) : Quiet (pure x) := fun _ => rfl

theorem quiet_throw (e : Failure) : Quiet (throw e : ExceptT Failure (StateM Disk) α) :=
  fun _ => rfl

theorem quiet_lift {x : StateM Disk α} (h : ∀ d, (x.run d).2 = d) :
    Quiet (liftM x : ExceptT Failure (StateM Disk) α) := h

theorem Quiet.bind {a : ExceptT Failure (StateM Disk) α}
    {f : α → ExceptT Failure (StateM Disk) β} (first : Quiet a) (next : ∀ x, Quiet (f x)) :
    Quiet (a >>= f) := by
  intro d
  have same := first d
  rw [Action.run_bind]
  revert same
  rcases a.run d with ⟨_ | x, t⟩
  · exact id
  · rintro rfl
    exact next x t

theorem Quiet.peel {a : ExceptT Failure (StateM Disk) α} {f : α → ExceptT Failure (StateM Disk) β}
    {outcome : Except Failure β} (quiet : Quiet a) (run : (a >>= f).run d = (outcome, d')) :
    (∃ e, outcome = .error e) ∧ d' = d ∨
      ∃ x, a.run d = (.ok x, d) ∧ (f x).run d = (outcome, d') := by
  have same := quiet d
  rw [Action.run_bind] at run
  cases ran : a.run d with
  | mk result t =>
    rw [ran] at same run
    cases same
    cases result with
    | error e =>
      cases run
      exact .inl ⟨⟨e, rfl⟩, rfl⟩
    | ok x => exact .inr ⟨x, rfl, run⟩

theorem quiet_need {ε : Type} (wrap : ε → Failure) (outcome : Except ε α) :
    Quiet (need wrap outcome) := by
  cases outcome with
  | ok a => exact quiet_pure a
  | error e => exact quiet_throw _

theorem quiet_version (text : String) : Quiet (version text) := by
  rw [version]
  cases Version.parse? text with
  | some v => exact quiet_pure v
  | none => exact quiet_throw _

theorem quiet_firstPresent (files : List Path) (d : Disk) :
    ((firstPresent Disk.access files).run d).2 = d := by
  induction files with
  | nil => rfl
  | cons p files ih =>
    show ((if (d.entry? p).isSome then pure (some p) else
      firstPresent Disk.access files : StateM Disk (Option Path)).run d).2 = d
    by_cases present : (d.entry? p).isSome = true
    · rw [if_pos present]
      rfl
    · rw [if_neg present]
      exact ih

theorem quiet_readBlob (p : Path) : Quiet (readBlob Disk.access p) :=
  .bind (quiet_lift fun _ => rfl) fun _ => quiet_need _ _

theorem quiet_loadConfig (project : Option Path) : Quiet (loadConfig Disk.access project) := by
  have fromFile (p : Path) :
      Quiet (do need (.configUnreadable p) (Config.ofFile p (← Disk.access.read p))) :=
    .bind (quiet_lift fun _ => rfl) fun _ => quiet_need _ _
  cases project with
  | some p => exact fromFile p
  | none =>
    refine .bind (quiet_lift (quiet_firstPresent _)) ?_
    exact Option.forall.2 ⟨quiet_pure ({} : Config), fromFile⟩

theorem quiet_inspect (p : Path) (json : Bool) : Quiet (inspect Disk.access p json) := by
  refine .bind (quiet_readBlob p) fun blob => .bind (quiet_need _ _) fun summary => ?_
  exact quiet_pure _

theorem quiet_recipe (engineVersion : String) (project : Option Path) (json : Bool) :
    Quiet (recipe Disk.access engineVersion project json) := by
  refine .bind (quiet_loadConfig project) fun config => .bind (quiet_version engineVersion) ?_
  exact fun v => quiet_pure _

theorem quiet_showConfig (project : Option Path) (overrides : Overrides) :
    Quiet (showConfig Disk.access project overrides) :=
  .bind (quiet_loadConfig project) fun _ => quiet_pure _

/-- What a command that succeeds does to a disk. The output of a patch has the bytes of the blob,
but those that the recipe covers and both blobs have come from the reference. -/
inductive Effect (d : Disk) : Command → Disk → Prop where
  | inspect {p : Path} {json : Bool} : Effect d (.inspect p json) d
  | recipe {engineVersion : String} {project : Option Path} {json : Bool} :
      Effect d (.recipe engineVersion project json) d
  | config {project : Option Path} {overrides : Overrides} :
      Effect d (.config project overrides) d
  | patch {p referencePath : Path} {engineVersion : String} {output project : Option Path}
      {config : Config} {v : Version} {recipe : Patch.Recipe} {blob reference patched : Bytes}
      {d' : Disk} (configured : (loadConfig Disk.access project).run d = (.ok config, d))
      (parsed : Version.parse? engineVersion = some v)
      (selected : config.table.select v = some recipe) (given : d.read p = .ok blob)
      (lent : d.read referencePath = .ok reference) (length : patched.length = blob.length)
      (bytes : ∀ i, patched[i]? =
        if recipe.Covers i ∧ i < blob.length ∧ i < reference.length then reference[i]?
        else blob[i]?)
      (writes : d.Writes (output.getD p) patched d') :
      Effect d (.patch p referencePath engineVersion output project) d'
  | init {p : Path} {d' : Disk} (absent : d.entry? p = none)
      (writes : d.Writes p (Text.Utf8.encode (Config.initialText p)) d') : Effect d (.init p) d'

/-- Writing a file is the last step that can fail, and it fails as a whole. -/
theorem write_result {p : Path} {content : Bytes} {wrap : StorageError → Failure} {text : String}
    {outcome : Except Failure String}
    (run : (do
      need wrap (← Disk.access.write p content)
      return text : ExceptT Failure (StateM Disk) String).run d = (outcome, d')) :
    (∃ e, outcome = .error e) ∧ d' = d ∨ outcome = .ok text ∧ d.Writes p content d' := by
  have wrote : (liftM (Disk.access.write p content) :
      ExceptT Failure (StateM Disk) (Except StorageError Unit)).run d =
        (.ok (d.overwrite p content).1, (d.overwrite p content).2) := rfl
  rw [Action.run_bind_ok wrote] at run
  cases put : d.put p content with
  | error e =>
    rw [Disk.overwrite, put] at run
    cases run
    exact .inl ⟨⟨_, rfl⟩, rfl⟩
  | ok u =>
    rw [Disk.overwrite, put] at run
    cases run
    exact .inr ⟨rfl, Disk.writes_of_put put⟩

theorem run_readBlob {p : Path} {blob : Bytes}
    (run : (readBlob Disk.access p).run d = (.ok blob, d)) : d.read p = .ok blob := by
  have read : (liftM (Disk.access.read p) :
      ExceptT Failure (StateM Disk) (Except StorageError Bytes)).run d = (.ok (d.read p), d) := rfl
  rw [readBlob, Action.run_bind_ok read] at run
  cases content : d.read p with
  | error e =>
    rw [content] at run
    cases run
  | ok found =>
    rw [content] at run
    cases run
    rfl

theorem run_version {text : String} {v : Version}
    (run : (version text : ExceptT Failure (StateM Disk) Version).run d = (.ok v, d)) :
    Version.parse? text = some v := by
  rw [version] at run
  cases parsed : Version.parse? text with
  | none =>
    rw [parsed] at run
    cases run
  | some found =>
    rw [parsed] at run
    cases run
    rfl

theorem patch_result {p referencePath : Path} {engineVersion : String}
    {output project : Option Path} {outcome : Except Failure String}
    (run : (patch Disk.access p referencePath engineVersion output project).run d =
      (outcome, d')) :
    (∃ e, outcome = .error e) ∧ d' = d ∨
      (∃ text, outcome = .ok text) ∧
        Effect d (.patch p referencePath engineVersion output project) d' := by
  rcases (quiet_loadConfig project).peel run with failed | ⟨config, configured, run⟩
  · exact .inl failed
  rcases (quiet_version engineVersion).peel run with failed | ⟨v, parsed, run⟩
  · exact .inl failed
  rcases (quiet_readBlob p).peel run with failed | ⟨blob, given, run⟩
  · exact .inl failed
  rcases (quiet_readBlob referencePath).peel run with failed | ⟨reference, lent, run⟩
  · exact .inl failed
  cases selected : config.table.select v with
  | none =>
    rw [Patch.Table.patch, selected] at run
    cases run
    exact .inl ⟨⟨_, rfl⟩, rfl⟩
  | some recipe =>
    rw [Patch.Table.patch, selected] at run
    rcases write_result run with failed | ⟨ok, writes⟩
    · exact .inl failed
    · refine .inr ⟨⟨_, ok⟩, ?_⟩
      exact .patch configured (run_version parsed) selected (run_readBlob given)
        (run_readBlob lent) (recipe.length_apply blob reference)
        (recipe.getElem?_apply blob reference) writes

theorem initConfig_result {p : Path} {outcome : Except Failure String}
    (run : (initConfig Disk.access p).run d = (outcome, d')) :
    (∃ e, outcome = .error e) ∧ d' = d ∨
      (∃ text, outcome = .ok text) ∧ Effect d (.init p) d' := by
  have looked : (liftM (Disk.access.isPresent p) : ExceptT Failure (StateM Disk) Bool).run d =
      (.ok (d.entry? p).isSome, d) := rfl
  rw [initConfig, Action.run_bind_ok looked] at run
  cases there : d.entry? p with
  | some node =>
    rw [there] at run
    cases run
    exact .inl ⟨⟨_, rfl⟩, rfl⟩
  | none =>
    rw [there] at run
    rcases write_result run with failed | ⟨ok, writes⟩
    · exact .inl failed
    · exact .inr ⟨⟨_, ok⟩, .init there writes⟩

theorem Quiet.result {a : ExceptT Failure (StateM Disk) α} {outcome : Except Failure α}
    (quiet : Quiet a) (run : a.run d = (outcome, d')) :
    (∃ e, outcome = .error e) ∧ d' = d ∨ (∃ x, outcome = .ok x) ∧ d' = d := by
  have same := quiet d
  rw [run] at same
  cases outcome with
  | error e => exact .inl ⟨⟨e, rfl⟩, same⟩
  | ok x => exact .inr ⟨⟨x, rfl⟩, same⟩

theorem perform_result {command : Command} {outcome : Except Failure String}
    (run : (command.perform Disk.access).run d = (outcome, d')) :
    (∃ e, outcome = .error e) ∧ d' = d ∨ (∃ text, outcome = .ok text) ∧ Effect d command d' := by
  cases command with
  | inspect p json =>
    rcases (quiet_inspect p json).result run with failed | ⟨ok, rfl⟩
    · exact .inl failed
    · exact .inr ⟨ok, .inspect⟩
  | recipe engineVersion project json =>
    rcases (quiet_recipe engineVersion project json).result run with failed | ⟨ok, rfl⟩
    · exact .inl failed
    · exact .inr ⟨ok, .recipe⟩
  | config project overrides =>
    rcases (quiet_showConfig project overrides).result run with failed | ⟨ok, rfl⟩
    · exact .inl failed
    · exact .inr ⟨ok, .config⟩
  | patch p referencePath engineVersion output project => exact patch_result run
  | init p => exact initConfig_result run

theorem run_of_ok {args : List String} {command : Command} {text : String}
    (denoted : Command.read? args = some command)
    (performed : (command.perform Disk.access).run d = (.ok text, d')) :
    (run Disk.access args).run d = ({ exitStatus := 0, output := text }, d') := by
  have ran : StateT.run (command.perform Disk.access).run d = (.ok text, d') := performed
  rw [run, denoted]
  show StateT.run (_ >>= _) d = _
  rw [StateT.run_bind, ran]
  rfl

theorem run_of_error {args : List String} {command : Command} {failure : Failure}
    (denoted : Command.read? args = some command)
    (performed : (command.perform Disk.access).run d = (.error failure, d')) :
    (run Disk.access args).run d =
      ({ exitStatus := 1, errors := failure.report ++ "\n" }, d') := by
  have ran : StateT.run (command.perform Disk.access).run d = (.error failure, d') := performed
  rw [run, denoted]
  show StateT.run (_ >>= _) d = _
  rw [StateT.run_bind, ran]
  rfl

/-- Whatever the disk holds and the arguments are: a run that does not exit with zero leaves the
disk exactly as it was, and a command that succeeds has its effect and no other. -/
theorem run_atomic (d : Disk) (args : List String) :
    let result := (run Disk.access args).run d
    (result.1.exitStatus ≠ 0 → result.2 = d) ∧
      ∀ command, Command.read? args = some command → result.1.exitStatus = 0 →
        Effect d command result.2 := by
  intro result
  cases read : Command.read? args with
  | none =>
    have usage : result.2 = d := by
      show ((run Disk.access args).run d).2 = d
      rw [run, read]
      rfl
    refine ⟨fun _ => usage, ?_⟩
    intro command denoted
    cases denoted
  | some command =>
    cases performed : (command.perform Disk.access).run d with
    | mk outcome d' =>
      rcases perform_result performed with ⟨⟨failure, rfl⟩, rfl⟩ | ⟨⟨text, rfl⟩, effect⟩
      · have failed : result = _ := run_of_error read performed
        rw [failed]
        refine ⟨fun _ => rfl, ?_⟩
        intro _ _ zero
        cases zero
      · have succeeded : result = _ := run_of_ok read performed
        rw [succeeded]
        refine ⟨fun status => absurd rfl status, ?_⟩
        rintro _ ⟨⟩ _
        exact effect

/-- A blob is patched in place from one that is shorter; no version is called `v`. -/
theorem run_atomic_patch :
    let files : Disk := ⟨[
      (⟨.above 0, ["app.jsc"]⟩, .file (List.replicate 14 1)),
      (⟨.above 0, ["own.jsc"]⟩, .file (List.replicate 13 2))]⟩
    let result (engineVersion : String) :=
      (run Disk.access
        ["patch", "app.jsc", "--reference", "own.jsc", "--engine-version", engineVersion]).run files
    ((result "v20.0.0").1.exitStatus = 0 ∧
      Effect files (.patch ⟨"app.jsc"⟩ ⟨"own.jsc"⟩ "v20.0.0" none none) (result "v20.0.0").2) ∧
      (result "v").1.exitStatus ≠ 0 ∧ (result "v").2 = files := by
  intro files result
  have patched : (result "v20.0.0").1.exitStatus = 0 := by decide +kernel
  have failed : (result "v").1.exitStatus ≠ 0 := by decide +kernel
  refine ⟨⟨patched, ?_⟩, failed, (run_atomic files _).1 failed⟩
  exact (run_atomic files _).2 _ (by decide) patched

end CommandLine

end CodeCache
