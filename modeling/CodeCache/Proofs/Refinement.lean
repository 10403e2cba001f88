import CodeCache.Proofs.Linking

/-! # The loader refines the interpreter

Whatever modules the engine holds, running a blob gives the exports that the pure interpreter gives,
or fails with its error. No module that exists is touched. -/

namespace CodeCache

open State (Keeps Yields Resolves)

namespace Loader

variable {l : Loader}

section

variable {origin : Option Path} {blob : Bytes} {e : LoadError}

theorem run_patch_of_version (h : Version.parse? l.build.version = none) (s : State) :
    (l.patch blob).run s = (.error (.version l.build.version), s) := by
  rw [patch, h]
  rfl

theorem run_patch_of_compile {v : Version} {e : Script.SyntaxError}
    (hv : Version.parse? l.build.version = some v)
    (hr : l.build.compile l.config.referenceSource = .error e) (s : State) :
    (l.patch blob).run s = (.error (.compile e), l.compiled s) := by
  simp only [patch, hv]
  rw [State.compile, hr]
  rfl

theorem keeps_compiled (l : Loader) (s : State) : Keeps s.modules.length s (l.compiled s) :=
  State.keeps_events _ s _

theorem keeps_made (s : State) (units size : Nat) (r : ModuleRecord) :
    Keeps s.modules.length s (made s units size r) := by
  constructor
  · simp [made]
  · intro i hi
    exact List.getElem?_append_left hi
  · rfl

theorem openBlob_of_error (h : l.decodeBlob origin blob = .error e) (context : Option String)
    (s : State) :
    ∃ t, (l.openBlob origin context blob).run s = (.error e, t) ∧ Keeps s.modules.length s t := by
  unfold decodeBlob at h
  split at h
  · rename_i hv
    cases h
    exact ⟨s, Action.run_bind_error (run_patch_of_version hv s), .refl _ s⟩
  rename_i v hv
  split at h
  · rename_i hr
    cases h
    exact ⟨_, Action.run_bind_error (run_patch_of_compile hv hr s), keeps_compiled l s⟩
  rename_i reference hr
  dsimp only at h
  split at h
  · rename_i header
    cases h
    exact ⟨_, (run_openBlob hv hr _ _ _ s).trans (openPatched_of_header header _),
      keeps_compiled l s⟩
  rename_i p placeholder
  split at h
  · cases h
  · rename_i rejection decoded
    cases h
    exact ⟨_, (run_openBlob hv hr _ _ _ s).trans (openPatched_of_refused placeholder decoded _),
      (keeps_compiled l s).trans (keeps_made (l.compiled s) _ _ _)⟩

/-- A blob with a script is opened: its module is made after the reference source was compiled. -/
theorem run_openBlob_of_ok {script : Script} (h : l.decodeBlob origin blob = .ok script)
    (context : Option String) (s : State) :
    ∃ units size, (l.openBlob origin context blob).run s =
      (.ok s.modules.length, made (l.compiled s) units size { body := .source script, context }) := by
  unfold decodeBlob at h
  split at h
  · cases h
  rename_i v hv
  split at h
  · cases h
  rename_i reference hr
  dsimp only at h
  split at h
  · cases h
  rename_i p placeholder
  split at h
  · rename_i decoded
    cases h
    exact ⟨_, _, (run_openBlob hv hr _ _ _ s).trans (openPatched_of_accepted placeholder decoded _)⟩
  · cases h

theorem openBlob_of_ok {script : Script} (h : l.decodeBlob origin blob = .ok script)
    (context : Option String) (s : State) :
    ∃ t, (l.openBlob origin context blob).run s = (.ok s.modules.length, t) ∧
      Keeps s.modules.length s t ∧
      t.modules[s.modules.length]? = some { body := .source script, context } := by
  obtain ⟨units, size, run⟩ := run_openBlob_of_ok h context s
  exact ⟨_, run, (keeps_compiled l s).trans (keeps_made (l.compiled s) _ _ _),
    getElem?_made (l.compiled s) _ _ _⟩

end

section

variable {resolve : State.Resolver} {context : Option String}
  {exports : String → Except LoadError Fields} {s : State} {id : ModuleId} {script : Script}

theorem finish_of_error {e : LoadError} (resolves : Resolves resolve s.contexts context exports)
    (record : s.modules[id]? = some { body := .source script, context })
    (outcome : (do script.run (s.globals context) (gathered (← gather exports script.specifiers))) =
      .error e) :
    ∃ t, (finish resolve id).run s = (.error e, t) ∧ Keeps id s t := by
  cases found : gather exports script.specifiers with
  | error e' =>
    rw [found] at outcome
    cases outcome
    obtain ⟨t, link, keeps⟩ := resolves.link_of_error rfl record rfl rfl rfl found
    exact ⟨t, Action.run_bind_error link, keeps⟩
  | ok found' =>
    rw [found] at outcome
    obtain ⟨t, r, link, keeps, own, status, body, here, bound⟩ :=
      resolves.link_of_ok rfl record rfl rfl rfl found
    have ran : script.run (t.globals r.context) (gathered found') = .error e := by
      rw [here, keeps.globals]
      exact outcome
    obtain ⟨u, evaluate, keeps'⟩ := State.evaluate_of_error own status body bound ran
    refine ⟨u, ?_, keeps.trans keeps'⟩
    rw [finish, Action.run_bind_ok link, Action.run_bind_error evaluate]

theorem finish_of_ok {out : Fields} (resolves : Resolves resolve s.contexts context exports)
    (record : s.modules[id]? = some { body := .source script, context })
    (outcome : (do script.run (s.globals context) (gathered (← gather exports script.specifiers))) =
      .ok out) :
    ∃ t r, (finish resolve id).run s = (.ok id, t) ∧ Keeps id s t ∧ t.modules[id]? = some r ∧
      r.Exports out := by
  obtain ⟨found, gathers, outcome⟩ := bind_eq_ok.1 outcome
  obtain ⟨t, r, link, keeps, own, status, body, here, bound⟩ :=
    resolves.link_of_ok rfl record rfl rfl rfl gathers
  have ran : script.run (t.globals r.context) (gathered found) = .ok out := by
    rw [here, keeps.globals]
    exact outcome
  obtain ⟨u, r', evaluate, keeps', own', exported⟩ := State.evaluate_of_ok own status body bound ran
  refine ⟨u, r', ?_, keeps.trans keeps', own', exported⟩
  rw [finish, Action.run_bind_ok link, Action.run_bind_ok evaluate]
  rfl

end

section

variable {pathExports : Path → Except LoadError Fields} {resolve : State.Resolver}
  {context : Option String} {s : State}

theorem runBlob_yields
    (resolves : Resolves resolve s.contexts context (l.importExports pathExports))
    (origin : Option Path) (blob : Bytes) :
    Yields ModuleRecord.Exports (l.runBlob resolve origin context blob) s
      (l.interpretBlob pathExports (s.globals context) origin blob) := by
  cases decoded : l.decodeBlob origin blob with
  | error e =>
    obtain ⟨t, opened, keeps⟩ := openBlob_of_error decoded context s
    rw [interpretBlob, decoded]
    exact .fails keeps (Action.run_bind_error opened)
  | ok script =>
    obtain ⟨t, opened, keeps, record⟩ := openBlob_of_ok decoded context s
    have shape : l.interpretBlob pathExports (s.globals context) origin blob =
        l.interpretScript pathExports (t.globals context) script := by
      rw [interpretBlob, decoded, keeps.globals]
      rfl
    rw [← keeps.contexts] at resolves
    rw [shape]
    cases outcome : l.interpretScript pathExports (t.globals context) script with
    | error e =>
      obtain ⟨u, run, keeps'⟩ := finish_of_error resolves record outcome
      exact .fails (keeps.trans keeps') ((Action.run_bind_ok opened).trans run)
    | ok out =>
      obtain ⟨u, r, run, keeps', own, exported⟩ := finish_of_ok resolves record outcome
      exact .makes (keeps.trans keeps') ((Action.run_bind_ok opened).trans run) (Nat.le_refl _) own
        exported

theorem run_require (known : Packages) (specifier : String) (s : State) :
    (Package.require known specifier).run s =
      (known.answer specifier, { s with requests := s.requests ++ [specifier] }) := by
  rw [Package.require]
  cases known.answer specifier <;> rfl

theorem run_syntheticModule (names : List String) (setup : Setup) (context : Option String)
    (s : State) :
    (State.syntheticModule names setup context).run s =
      (.ok s.modules.length,
        { s with
          modules := s.modules ++ [{ body := .synthetic names (some setup), context }]
          events := s.events ++ [.synthetic names context s.modules.length] }) := rfl

theorem package_yields (known : Packages) (specifier : String) (context : Option String)
    (s : State) :
    Yields (ModuleRecord.Offers .unlinked) (do
      let package ← Package.require known specifier
      State.syntheticModule package.exportNames package.setup context) s
      ((known.answer specifier).map Package.exports) := by
  have asked := run_require known specifier s
  have keeps : Keeps s.modules.length s { s with requests := s.requests ++ [specifier] } :=
    ⟨Nat.le_refl _, fun _ _ => rfl, rfl⟩
  cases answer : known.answer specifier with
  | error e =>
    rw [answer] at asked
    exact .fails keeps (Action.run_bind_error asked)
  | ok package =>
    rw [answer] at asked
    have made := (Action.run_bind_ok (f := fun package : Package =>
      State.syntheticModule package.exportNames package.setup context) asked).trans
        (run_syntheticModule _ _ context { s with requests := s.requests ++ [specifier] })
    have pending : ModuleRecord.Offers .unlinked
        { body := .synthetic package.exportNames (some package.setup), context } package.exports :=
      .inr ⟨rfl, rfl, _, _, rfl, package.run_setup⟩
    refine .makes ?_ made (Nat.le_refl _) ?_ pending
    · exact ⟨by simp, fun _ hi => List.getElem?_append_left hi, rfl⟩
    · simp

theorem run_resolveImport (l : Loader) (runImport : Option String → Path → Action ModuleId)
    (specifier : String) {referrer : ModuleId} {r : ModuleRecord}
    (record : s.modules[referrer]? = some r) :
    (l.resolveImport runImport specifier referrer).run s =
      (if l.config.isBytecode specifier then runImport r.context (l.config.blobPath specifier)
      else do
        let package ← Package.require l.packages specifier
        State.syntheticModule package.exportNames package.setup r.context).run s :=
  Action.run_bind_ok (State.run_moduleAt_of record)

/-- Imports are resolved to modules that offer what the interpreter says, if blobs at paths are. -/
theorem resolveImport_resolves {runImport : Option String → Path → Action ModuleId}
    {contexts : Entries Fields}
    (runs : ∀ s : State, s.contexts = contexts → ∀ p,
      Yields ModuleRecord.Exports (runImport context p) s (pathExports p)) :
    Resolves (l.resolveImport runImport) contexts context (l.importExports pathExports) := by
  intro s referrer r same record here specifier
  have start := run_resolveImport l runImport specifier record
  rw [here] at start
  rw [importExports]
  split
  · rename_i bytecode
    rw [if_pos bytecode] at start
    exact (runs s same _).mono start fun _ _ => .inl
  · rename_i package
    rw [if_neg package] at start
    exact (package_yields l.packages specifier context s).mono start fun _ _ => id

end

theorem readBlob_of_missing {m : Memory} (hm : l.storage = .memory m) {p : Path}
    (missing : m.get? p = none) : l.readBlob p = throw (.storage (.fileNotFound p)) := by
  rw [readBlob, hm, Storage.read, Memory.read, missing]

theorem readBlob_of_found {m : Memory} (hm : l.storage = .memory m) {p : Path} {content : Bytes}
    (found : m.get? p = some content) : l.readBlob p = pure content := by
  rw [readBlob, hm, Storage.read, Memory.read, found]

/-- By induction on the depth, which exceeds the number of files that the chain has not visited. -/
theorem runPathWithin_yields {m : Memory} (hm : l.storage = .memory m) (context : Option String)
    (depth : Nat) (chain : List Path) (deep : m.unvisited chain < depth) (p : Path) (s : State) :
    Yields ModuleRecord.Exports (l.runPathWithin depth chain context p) s
      (l.interpretPath m (s.globals context) chain p) := by
  induction depth generalizing chain p s with
  | zero => exact absurd deep (Nat.not_lt_zero _)
  | succ depth ih =>
    rw [runPathWithin, interpretPath]
    by_cases cycle : chain.any (·.same p) = true
    · rw [if_pos cycle, dif_pos cycle]
      exact .fails (.refl _ s) (Action.run_bind_error (Action.run_throw _ s))
    rw [if_neg cycle, dif_neg cycle]
    split
    · rename_i missing
      rw [readBlob_of_missing hm missing]
      exact .fails (.refl _ s) (Action.run_bind_error (Action.run_throw _ s))
    · rename_i blob file
      rw [readBlob_of_found hm file]
      have shallower := Memory.unvisited_lt file (Bool.eq_false_iff.2 cycle)
      have resolves : Resolves (l.resolveImport (l.runPathWithin depth (chain ++ [p]))) s.contexts
          context (l.importExports fun next =>
            l.interpretPath m (s.globals context) (chain ++ [p]) next) := by
        apply resolveImport_resolves
        intro t same next
        rw [← State.globals_congr same]
        exact ih (chain ++ [p]) (by omega) next t
      exact (runBlob_yields resolves (some p) blob).mono (Action.run_bind_ok (Action.run_pure blob s))
        fun _ _ => id

theorem runPath_yields {m : Memory} (hm : l.storage = .memory m) (context : Option String)
    (p : Path) (s : State) :
    Yields ModuleRecord.Exports (l.runPath context p) s
      (l.interpretPath m (s.globals context) [] p) := by
  exact runPathWithin_yields hm context l.storage.pathBound [] (unvisited_lt_pathBound hm []) p s

theorem run_yields {m : Memory} (hm : l.storage = .memory m) (context : Option String)
    (origin : BlobOrigin) (s : State) :
    Yields ModuleRecord.Exports (l.run context origin) s
      (l.interpret m (s.globals context) origin) := by
  cases origin with
  | path p => exact runPath_yields hm context p s
  | bytes blob =>
    apply runBlob_yields
    apply resolveImport_resolves
    intro t same next
    rw [← State.globals_congr same]
    exact runPath_yields hm context next t

theorem namespace_of_yields {a : Action ModuleId} {s : State} {outcome : Except LoadError Fields}
    (h : Yields ModuleRecord.Exports a s outcome) :
    ((a >>= State.namespaceOf).run s).1 = outcome := by
  cases h with
  | fails _ run => rw [Action.run_bind_error run]
  | makes _ run _ record exported =>
    rw [Action.run_bind_ok run, State.run_namespaceOf_of_exports record exported]

theorem outcome_runNamespace {m : Memory} (hm : l.storage = .memory m) (context : Option String)
    (origin : BlobOrigin) (s : State) :
    ((l.runNamespace context origin).run s).1 = l.interpret m (s.globals context) origin :=
  namespace_of_yields (run_yields hm context origin s)

/-- A run gives what the interpreter gives, whatever the engine holds, and leaves that alone. -/
theorem runNamespace_eq_interpret {m : Memory} (hm : l.storage = .memory m)
    (context : Option String) (origin : BlobOrigin) (s : State) :
    ((l.runNamespace context origin).run s).1 = l.interpret m (s.globals context) origin ∧
      (∀ (i : ModuleId) (r : ModuleRecord), s.modules[i]? = some r →
        ((l.runNamespace context origin).run s).2.modules[i]? = some r) ∧
      ((l.runNamespace context origin).run s).2.contexts = s.contexts := by
  have yields := run_yields hm context origin s
  have old {i : ModuleId} {r : ModuleRecord} (found : s.modules[i]? = some r) :
      i < s.modules.length := (List.getElem?_eq_some_iff.1 found).1
  generalize l.interpret m (s.globals context) origin = outcome at yields ⊢
  cases yields with
  | fails keeps run =>
    rw [runNamespace, Action.run_bind_error run]
    exact ⟨rfl, fun i r found => keeps.found (old found) found, keeps.contexts⟩
  | makes keeps run _ record exported =>
    rw [runNamespace, Action.run_bind_ok run, State.run_namespaceOf_of_exports record exported]
    exact ⟨rfl, fun i r found => keeps.found (old found) found, keeps.contexts⟩

def answerScript : Script := { body := [.exportDefault (.int 42)] }

def stored : Memory where
  files := [(⟨"a.jsc"⟩,
    Blob.encode answerScript (Text.units16 Sample.answer) (plain 1).build.fingerprint)]

theorem get?_stored : stored.get? ⟨"a.jsc"⟩ =
    some (Blob.encode answerScript (Text.units16 Sample.answer) (plain 1).build.fingerprint) := by
  simp [Memory.get?, stored, Path.same_refl]

theorem decodeBlob_answer {l : Loader} (hb : l.build = (plain 1).build) (hc : l.config = {})
    (f : Blob.Fingerprint) (origin : Option Path) :
    l.decodeBlob origin (Blob.encode answerScript (Text.units16 Sample.answer) f) =
      .ok answerScript :=
  decodeBlob_plain hb hc parse_answer (by decide) (by decide) f origin

theorem interpretPath_answer {l : Loader} {m : Memory} {chain : List Path} {p : Path}
    {f : Blob.Fingerprint} (hb : l.build = (plain 1).build) (hc : l.config = {})
    (fresh : chain.any (·.same p) = false)
    (file : m.get? p = some (Blob.encode answerScript (Text.units16 Sample.answer) f))
    (globals : Scope) :
    l.interpretPath m globals chain p = .ok [("default", .int 42)] := by
  rw [interpretPath_of_file fresh file]
  exact interpretBlob_eq_ok.2 ⟨answerScript, [], decodeBlob_answer hb hc f _, rfl, rfl⟩

def bindsAll : String :=
  "import a from \"a.jsc\"; import b, \x7b f as c \x7d from \"cfg\"; " ++
  "import * as d from \"cfg\"; export \x7b a, b, c, d \x7d;"

def bindsAllScript : Script where
  imports := [
    { specifier := "a.jsc", bindings := [.defaultExport "a"] },
    { specifier := "cfg", bindings := [.defaultExport "b", .named "f" "c"] },
    { specifier := "cfg", bindings := [.everything "d"] }]
  body := [.exportList [("a", "a"), ("b", "b"), ("c", "c"), ("d", "d")]]

theorem parse_bindsAll : Script.parse bindsAll = .ok bindsAllScript := by
  cbv

def bindingAll : Loader :=
  { plain 1 with
    packages := .ofTable [("cfg", .object [("f", .int 2)])]
    storage := .memory stored }

theorem interpret_bindingAll (globals : Scope) :
    bindingAll.interpret stored globals
      (.bytes (Blob.encode bindsAllScript (Text.units16 bindsAll) (plain 1).build.fingerprint)) =
        .ok [("a", .int 42), ("b", .object [("f", .int 2)]), ("c", .int 2),
          ("d", .object [("default", .object [("f", .int 2)]), ("f", .int 2)])] := by
  have gathers : gather (bindingAll.importExports (bindingAll.interpretPath stored globals []))
      bindsAllScript.specifiers = .ok [("a.jsc", [("default", .int 42)]),
        ("cfg", [("default", .object [("f", .int 2)]), ("f", .int 2)])] := by
    have specifiers : bindsAllScript.specifiers = ["a.jsc", "cfg"] := by decide
    have path : bindingAll.config.blobPath "a.jsc" = ⟨"a.jsc"⟩ := by decide
    rw [specifiers, gather, importExports, if_pos (by decide), path,
      interpretPath_answer (l := bindingAll) rfl rfl rfl get?_stored]
    rfl
  have decoded := decodeBlob_plain (l := bindingAll) rfl rfl parse_bindsAll (by decide +kernel)
    (by decide +kernel) (plain 1).build.fingerprint none
  exact interpretBlob_eq_ok.2 ⟨_, _, decoded, gathers, rfl⟩

/-- A file and a package are bound as a whole, by name and as their namespace, in an engine that
holds a module already. -/
theorem runNamespace_bindingAll :
    let old : ModuleRecord := { body := .placeholder .empty, context := none }
    ∃ blob t, bindingAll.build.compile bindsAll = .ok blob ∧
      (bindingAll.runNamespace none (.bytes blob)).run { modules := [old] } =
        (.ok [("a", .int 42), ("b", .object [("f", .int 2)]), ("c", .int 2),
          ("d", .object [("default", .object [("f", .int 2)]), ("f", .int 2)])], t) ∧
      t.modules[0]? = some old := by
  intro old
  obtain ⟨blob, compiled, exports⟩ : ∃ blob, bindingAll.build.compile bindsAll = .ok blob ∧
      ∀ globals, bindingAll.interpret stored globals (.bytes blob) = .ok _ :=
    ⟨_, Build.compile_eq parse_bindsAll _, interpret_bindingAll⟩
  obtain ⟨outcome, kept, _⟩ := runNamespace_eq_interpret (l := bindingAll) (m := stored) rfl none
    (.bytes blob) { modules := [old] }
  exact ⟨blob, _, compiled, Prod.ext (outcome.trans (exports _)) rfl, kept 0 old rfl⟩

end Loader

end CodeCache
