import CodeCache.Proofs.PrintedJson
import CodeCache.Proofs.RepeatedPatches
import CodeCache.Proofs.Utf8

/-! # A printed configuration is read back

A configuration is printed with all of its fields, nothing as null and an empty list as such, and
reading the text gives the same configuration. So whatever the configuration command prints can be
saved as a project file, for which the command prints it again. -/

namespace CodeCache

theorem mapM_map_eq_some {α β γ : Type} {f : α → β} {g : β → Option γ} {k : α → γ}
    (h : ∀ a, g (f a) = some (k a)) (as : List α) : (as.map f).mapM g = some (as.map k) := by
  induction as with
  | nil => rfl
  | cons a as ih =>
    rw [List.map_cons, List.mapM_cons, h, ih]
    rfl

structure Reloads {α : Type} (read : Document → Option α) (print : α → Value) : Prop where
  exact : ∀ a, (print a).Exact
  read : ∀ a, read (print a).toDocument = some a

namespace Reloads

open Document

variable {α : Type} {read : Document → Option α} {print : α → Value}

theorem text : Reloads text? .str := ⟨.str, fun _ => rfl⟩

theorem flag : Reloads bool? .bool := ⟨.bool, fun _ => rfl⟩

theorem natBelow?_natural {n bound : Nat} (small : n < bound) :
    natBelow? bound (.int n) = some n := by
  have inside : (0 : Int) ≤ n ∧ (n : Int) < bound := ⟨Int.natCast_nonneg n, Int.ofNat_lt.2 small⟩
  rw [natBelow?, if_pos inside, Int.toNat_natCast]

theorem word : Reloads uint32? fun w : UInt32 => .int w.toNat where
  exact w := by
    have small := w.toNat_lt
    exact .int (by omega) (by omega)
  read w := by
    show (natBelow? _ (.int w.toNat)).map UInt32.ofNat = some w
    rw [natBelow?_natural w.toNat_lt, Option.map_some, UInt32.ofNat_toNat]

theorem size : Reloads uint64? fun w : UInt64 => .int w.toNat where
  exact w := by
    have small := w.toNat_lt
    exact .int (by omega) (by omega)
  read w := by
    show (natBelow? _ (.int w.toNat)).map UInt64.ofNat = some w
    rw [natBelow?_natural w.toNat_lt, Option.map_some, UInt64.ofNat_toNat]

theorem list (h : Reloads read print) :
    Reloads (listOf? read) fun as : List α => .array (as.map print) where
  exact as := by
    refine .array fun v among => ?_
    obtain ⟨a, _, rfl⟩ := List.mem_map.1 among
    exact h.exact a
  read as := by
    rw [Value.toDocument, Value.itemDocuments_eq, listOf?, List.map_map]
    exact (mapM_map_eq_some (k := id) h.read as).trans (congrArg some (List.map_id as))

/-- Nothing is told apart from anything that is there, since only it is printed as null. -/
theorem option (h : Reloads read print) (there : ∀ a, (print a).toDocument ≠ .null) :
    Reloads (optional? read) (Value.ofOption print) where
  exact o := by
    cases o with
    | none => exact .null
    | some a => exact h.exact a
  read o := by
    cases o with
    | none => rfl
    | some a =>
      rw [Value.ofOption, optional?, h.read]
      · rfl
      · exact there a

variable {fields : Entries Document} {name : String} {a : α}

theorem field (h : Reloads read print)
    (given : Entries.get? fields name = some (print a).toDocument) :
    field? fields name read = some a := by
  rw [field?, given, Option.bind_some, h.read]

theorem fieldOr (h : Reloads read print)
    (given : Entries.get? fields name = some (print a).toDocument) (default : α) :
    fieldOr? fields name read default = some a := by
  rw [fieldOr?, given]
  exact h.read a

end Reloads

namespace Document

/-- A record is printed with its own fields and no others, so that all of them are found. -/
theorem knownFields?_own {entries : Entries Value} {names : List String}
    (own : Entries.keys entries = names) (different : names.Nodup) :
    knownFields? names (Value.entryDocuments entries) =
      some (entries.map fun e => (e.1, e.2.toDocument)) := by
  have texts : (Value.entryDocuments entries).mapM (fun e => e.1.map (·, e.2)) =
      some (entries.map fun e => (e.1, e.2.toDocument)) := by
    rw [Value.entryDocuments_eq]
    refine mapM_map_eq_some (fun e => ?_) entries
    rfl
  have keys : Entries.keys (entries.map fun e => (e.1, e.2.toDocument)) = names := by
    rw [← own, Entries.keys, List.map_map]
    rfl
  have known : (entries.map fun e => (e.1, e.2.toDocument)).filter (·.1 ∈ names) =
      entries.map fun e => (e.1, e.2.toDocument) := by
    rw [List.filter_eq_self]
    intro e among
    rw [← keys]
    exact decide_eq_true (List.mem_map_of_mem among)
  rw [knownFields?, texts]
  simp only [bind, Option.bind_some, known, keys, different, if_true]

theorem fields?_object {entries : Entries Value} {names : List String}
    (own : Entries.keys entries = names) (different : names.Nodup) :
    fields? names (Value.object entries).toDocument =
      some (entries.map fun e => (e.1, e.2.toDocument)) :=
  knownFields?_own own different

end Document

open Document (fields?_object knownFields?_own)

theorem BundleFormat.reloads : Reloads read? fun f => .str f.name where
  exact f := .str _
  read f := by
    cases f
    rfl

theorem BundleOptions.reloads : Reloads read? toValue where
  exact b := .object (by simpa using ⟨.str _, .bool _, .bool _⟩)
  read b := by
    -- Field by field; evaluated as a whole, reading would count up to the bound of a word.
    simp only [read?, bind, Option.bind_eq_some_iff]
    exact ⟨_, fields?_object rfl (by decide), _, BundleFormat.reloads.fieldOr rfl _, _,
      Reloads.flag.fieldOr rfl _, _, Reloads.flag.fieldOr rfl _, rfl⟩

namespace Patch

theorem Range.reloads : Reloads Range.read? Range.toValue where
  exact r := .object (by simpa using ⟨Reloads.size.exact _, Reloads.size.exact _⟩)
  read r := by
    simp only [Range.read?, bind, Option.bind_eq_some_iff]
    exact ⟨_, fields?_object rfl (by decide), _, Reloads.size.field rfl, _,
      Reloads.size.field rfl, rfl⟩

namespace Predicate

/-- The kind of a predicate is printed first, and told apart from its fields. -/
theorem read?_kind {kind : String} {entries : Entries Value}
    (sound : (Value.object (("kind", .str kind) :: entries)).toDocument.isSound (partDepth + 1))
    (apart : "kind" ∉ Entries.keys entries) :
    read? (Value.object (("kind", .str kind) :: entries)).toDocument =
      ofKind? kind fun names => Document.knownFields? names (Value.entryDocuments entries) := by
  have noKind : ∀ e ∈ Value.entryDocuments entries, e.1 ≠ some "kind" := by
    rw [Value.entryDocuments_eq]
    intro e among
    obtain ⟨f, printed, rfl⟩ := List.mem_map.1 among
    intro same
    apply apart
    rw [← Option.some.inj same]
    exact List.mem_map_of_mem printed
  have fields : (Value.entryDocuments entries).filter (fun e => !decide (e.1 = some "kind")) =
      Value.entryDocuments entries := by
    rw [List.filter_eq_self]
    intro e among
    rw [decide_eq_false (noKind e among)]
    rfl
  have kinds :
      (Value.entryDocuments entries).filter (fun e => decide (e.1 = some "kind")) = [] := by
    rw [List.filter_eq_nil_iff]
    intro e among
    rw [decide_eq_false (noKind e among)]
    exact Bool.false_ne_true
  have shape : (Value.object (("kind", .str kind) :: entries)).toDocument =
      .table ((some "kind", .text (some kind)) :: Value.entryDocuments entries) := rfl
  rw [shape] at sound ⊢
  rw [read?, sound]
  simp [fields, kinds, Document.text?]

theorem reloads : Reloads read? toValue where
  exact p := by
    cases p with
    | majorMinor | majorRange =>
      exact .object (by simpa using ⟨.str _, Reloads.word.exact _, Reloads.word.exact _⟩)
    | any => exact .object (by simpa using .str _)
  read p := by
    cases p with
    | majorMinor major minor =>
      rw [toValue, read?_kind rfl (by simp [Entries.keys]), ofKind?, if_pos rfl]
      simp only [bind, Option.bind_eq_some_iff]
      exact ⟨_, knownFields?_own rfl (by decide), _, Reloads.word.field rfl, _,
        Reloads.word.field rfl, rfl⟩
    | majorRange least greatest =>
      rw [toValue, read?_kind rfl (by simp [Entries.keys]), ofKind?, if_neg (by decide),
        if_pos rfl]
      simp only [bind, Option.bind_eq_some_iff]
      exact ⟨_, knownFields?_own rfl (by decide), _, Reloads.word.field rfl, _,
        Reloads.word.field rfl, rfl⟩
    | any =>
      rw [toValue, read?_kind rfl (by decide), ofKind?, if_neg (by decide), if_neg (by decide),
        if_pos rfl]
      rfl

end Predicate

theorem Recipe.reloads : Reloads read? toValue where
  exact r := .object (by
    simpa using ⟨.str _, Predicate.reloads.list.exact _, Range.reloads.list.exact _⟩)
  read r := by
    simp only [read?, bind, Option.bind_eq_some_iff]
    exact ⟨_, fields?_object rfl (by decide), _, Reloads.text.field rfl, _,
      Predicate.reloads.list.field rfl, _, Range.reloads.list.field rfl, rfl⟩

end Patch

namespace Config

/-- No recipes, an empty list of them and any other list are told apart. -/
theorem recipes : Reloads (Document.optional? (Document.listOf? Patch.Recipe.read?))
    (Value.ofOption fun rs => .array (rs.map Patch.Recipe.toValue)) :=
  Patch.Recipe.reloads.list.option nofun

theorem root : Reloads (Document.optional? Document.text?) (Value.ofOption .str) :=
  Reloads.text.option nofun

theorem reloads : Reloads read? toValue where
  exact c := .object (by
    simpa using ⟨.str _, Reloads.word.exact _, .str _, recipes.exact _, root.exact _,
      BundleOptions.reloads.exact _⟩)
  read c := by
    simp only [read?, bind, Option.bind_eq_some_iff]
    exact ⟨_, fields?_object rfl (by decide), _, Reloads.text.fieldOr rfl _, _,
      Reloads.word.fieldOr rfl _, _, Reloads.text.fieldOr rfl _, _, recipes.fieldOr rfl _, _,
      root.fieldOr rfl _, _, BundleOptions.reloads.fieldOr rfl _, rfl⟩

/-- The text that a configuration is printed as is read back, also with a line break after it. -/
theorem parse?_json (c : Config) :
    parse? .json c.json = some c ∧ parse? .json (c.json ++ "\n") = some c := by
  have read {text : String} (h : Json.parse? text = some c.toValue.toDocument) :
      parse? .json text = some c := by
    rw [parse?, h, Option.bind_eq_bind, Option.bind_some, reloads.read]
  exact (Json.parse?_pretty (reloads.exact c)).imp read read

theorem ofFile_of_parse? {p : Path} {text : String} {c : Config}
    (h : parse? (dialectOf p) text = some c) : ofFile p (.ok (Text.Utf8.encode text)) = .ok c := by
  simp only [ofFile, Text.Utf8.decode?_encode, h]

end Config

namespace Disk

theorem text_ne_empty_of_put {d d' : Disk} {p : Path} {content : Bytes}
    (put : d.put p content = .ok d') : p.text ≠ "" := by
  intro empty
  obtain ⟨l, located, _⟩ := put_eq_ok put
  have noNul : '\x00' ∉ p.text.toList := by
    rw [empty]
    decide
  rw [locate, walk, if_neg noNul, if_pos empty] at located
  cases located

theorem read_put {d d' : Disk} {p : Path} {content : Bytes} (put : d.put p content = .ok d') :
    d'.read p = .ok content := by
  obtain ⟨l, located, _⟩ := put_eq_ok put
  exact read_of_aliases put ⟨l, located, located⟩

end Disk

namespace CommandLine

variable {d d' : Disk} {project : Option Path} {overrides : Overrides} {text : String}

theorem run_showConfig_eq_ok :
    (showConfig Disk.access project overrides).run d = (.ok text, d') ↔
      ∃ config, configOf d project = .ok config ∧ d' = d ∧
        text = (config.merge overrides).json ++ "\n" := by
  simp only [showConfig, Action.run_bind_eq_ok, run_loadConfig_eq_ok, Action.run_pure]
  constructor
  · rintro ⟨config, _, ⟨configured, rfl⟩, result⟩
    obtain ⟨printed, rfl⟩ := Prod.mk.inj result
    exact ⟨config, configured, rfl, (Except.ok.inj printed).symm⟩
  · rintro ⟨config, configured, rfl, rfl⟩
    exact ⟨config, _, ⟨configured, rfl⟩, rfl⟩

theorem option?_project (known : List Known) (value : List Char) :
    Arguments.option? (Command.project :: known)
      ('-' :: '-' :: ("project".toList ++ '=' :: value)) =
      some (Command.project, some (String.ofList value)) := rfl

theorem read?_project (known : List Known) (value : String) :
    Arguments.read? (Command.project :: known) ["--project=" ++ value] =
      some { options := [("project", value)] } := by
  have shape : ("--project=" ++ value).toList =
      '-' :: '-' :: ("project".toList ++ '=' :: value.toList) := by
    rw [String.toList_append]
    rfl
  have notAll : "--project=" ++ value ≠ "--" := by
    intro same
    rw [same] at shape
    cases shape
  have notDash : "--project=" ++ value ≠ "-" := by
    intro same
    rw [same] at shape
    cases shape
  have option : Arguments.looksLikeOption ("--project=" ++ value) = true := by
    rw [Arguments.looksLikeOption, shape, List.head?_cons, decide_eq_true rfl,
      decide_eq_true notDash]
    rfl
  rw [Arguments.read?, Arguments.readFrom?, if_neg notAll, option, shape, option?_project,
    String.ofList_toList]
  rfl

theorem read?_config {p : Path} (named : p.text ≠ "") :
    Command.read? ["config", "--project=" ++ p.text] = some (.config (some p) {}) := by
  show Command.readConfig? ["--project=" ++ p.text] = _
  rw [Command.readConfig?, read?_project]
  show (Option.bind (Option.map some (Command.path? p.text)) _) = _
  rw [Command.path?, if_neg named]
  rfl

/-- The command prints what the given settings make of the configuration that it finds. -/
theorem run_config {args : List String} {project : Option Path} {overrides : Overrides}
    {config merged : Config} (denoted : Command.read? args = some (.config project overrides))
    (configured : configOf d project = .ok config) (settled : overrides.Merged config merged) :
    (run Disk.access args).run d = ({ exitStatus := 0, output := merged.json ++ "\n" }, d) := by
  cases Config.merged_iff.1 settled
  exact run_of_ok denoted (run_showConfig_eq_ok.2 ⟨config, configured, rfl, rfl⟩)

/-- Given a file that holds what was printed, the command prints it again. -/
theorem run_showConfig_again {config : Config} {p : Path} (plain : Config.dialectOf p = .json)
    (held : d.read p = .ok (Text.Utf8.encode (config.json ++ "\n"))) :
    (showConfig Disk.access (some p) {}).run d = (.ok (config.json ++ "\n"), d) := by
  have configured : configOf d (some p) = .ok config := by
    have parsed : Config.parse? (Config.dialectOf p) (config.json ++ "\n") = some config := by
      rw [plain]
      exact config.parse?_json.2
    show (Config.ofFile p (d.read p)).mapError _ = _
    rw [held, Config.ofFile_of_parse? parsed]
    rfl
  refine run_showConfig_eq_ok.2 ⟨config, configured, rfl, ?_⟩
  rw [Config.merge_nothing]

/-- Any configuration is read back from the text that it is printed as. So whatever the project and
the settings that override it, as long as the project can be read: the command prints a text, and
when this is saved as a file that is not YAML, the command prints it again for that file, however
the file is given to it, and changes nothing. -/
theorem printed_config_reloads :
    (∀ (c : Config) (p : Path), Config.dialectOf p = .json →
      Config.ofFile p (.ok (Text.Utf8.encode c.json)) = .ok c ∧
      Config.ofFile p (.ok (Text.Utf8.encode (c.json ++ "\n"))) = .ok c) ∧
    ∀ (d : Disk) (args : List String) (project : Option Path) (overrides : Overrides)
      (config : Config), Command.read? args = some (.config project overrides) →
      configOf d project = .ok config →
      ∃ text, text = (config.merge overrides).json ++ "\n" ∧
        (run Disk.access args).run d = ({ exitStatus := 0, output := text }, d) ∧
        ∀ (e e' : Disk) (p : Path), Config.dialectOf p = .json →
          e.put p (Text.Utf8.encode text) = .ok e' →
          ∀ again, again = ["config", "--project=" ++ p.text] ∨
              Command.read? again = some (.config (some p) {}) →
            (run Disk.access again).run e' = ({ exitStatus := 0, output := text }, e') := by
  constructor
  · intro c p plain
    have reads (text : String) (h : Config.parse? .json text = some c) :
        Config.ofFile p (.ok (Text.Utf8.encode text)) = .ok c :=
      Config.ofFile_of_parse? (plain ▸ h)
    exact ⟨reads _ c.parse?_json.1, reads _ c.parse?_json.2⟩
  · intro d args project overrides config denoted configured
    refine ⟨_, rfl, run_config denoted configured (Config.merged_iff.2 rfl), ?_⟩
    intro e e' p plain saved again given
    have denoted : Command.read? again = some (.config (some p) {}) := by
      rcases given with rfl | denoted
      · exact read?_config (Disk.text_ne_empty_of_put saved)
      · exact denoted
    exact run_of_ok denoted (run_showConfig_again plain (Disk.read_put saved))

/-- A recipe for a range of versions, and a directory with a quote and a control in its name. -/
theorem printed_config_reloads_settings :
    let settings := "\x7b\"rootDir\": \"a\\\"\\u001f\", " ++
      "\"patchRecipes\": [\x7b\"name\": \"own\", " ++
      "\"when\": [\x7b\"kind\": \"majorRange\", \"min\": 18, \"max\": 20\x7d], " ++
      "\"ranges\": [\x7b\"start\": 12, \"end\": 16\x7d]\x7d]\x7d"
    let files : Disk := ⟨[(⟨.above 0, ["own.json"]⟩, .file (Text.Utf8.encode settings))]⟩
    let config : Config := {
      rootDir := some "a\"\x1f"
      patchRecipes := some [⟨"own", [.majorRange 18 20], [⟨12, 16⟩]⟩] }
    let merged : Config :=
      { config with bytecodeExtension := ".bin", bundle := { minify := false } }
    ∃ text files',
      (run Disk.access ["config", "-pown.json", "--no-minify", "--bytecode-extension=.bin"]).run
        files = ({ exitStatus := 0, output := text }, files) ∧
      text = Json.pretty (.object [
        ("bytecodeExtension", .str ".bin"),
        ("flushBytecodeMinMajor", .int 12),
        ("referenceSource", .str "\"ಠ_ಠ\""),
        ("patchRecipes", .array [.object [
          ("name", .str "own"),
          ("when", .array [
            .object [("kind", .str "majorRange"), ("min", .int 18), ("max", .int 20)]]),
          ("ranges", .array [.object [("start", .int 12), ("end", .int 16)]])]]),
        ("rootDir", .str "a\"\x1f"),
        ("bundle", .object [
          ("format", .str "es"),
          ("minify", .bool false),
          ("silenceWarnings", .bool true)])]) ++ "\n" ∧
      files.put ⟨"all.json"⟩ (Text.Utf8.encode text) = .ok files' ∧
      Config.ofFile ⟨"all.json"⟩ (files'.read ⟨"all.json"⟩) = .ok merged ∧
      (run Disk.access ["config", "--project=all.json"]).run files' =
        ({ exitStatus := 0, output := text }, files') := by
  intro settings files config merged
  have denoted : Command.read?
      ["config", "-pown.json", "--no-minify", "--bytecode-extension=.bin"] =
      some (.config (some ⟨"own.json"⟩)
        { minify := some false, bytecodeExtension := some ".bin" }) := by decide +kernel
  have configured : configOf files (some ⟨"own.json"⟩) = .ok config := by decide +kernel
  obtain ⟨text, printed, ran, again⟩ :=
    printed_config_reloads.2 files _ _ _ config denoted configured
  obtain ⟨files', saved⟩ : ∃ files', files.put ⟨"all.json"⟩ (Text.Utf8.encode text) = .ok files' :=
    ⟨_, rfl⟩
  have text_eq : text = merged.json ++ "\n" := printed
  have reloaded := (printed_config_reloads.1 merged ⟨"all.json"⟩ (by decide +kernel)).2
  rw [← text_eq, ← Disk.read_put saved] at reloaded
  refine ⟨text, files', ran, text_eq, saved, reloaded, ?_⟩
  exact again files files' ⟨"all.json"⟩ (by decide +kernel) saved _ (.inl rfl)

end CommandLine

end CodeCache
