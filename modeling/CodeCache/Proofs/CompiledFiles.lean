import CodeCache.Proofs.ImporterChains
import CodeCache.Session

/-! # Compiled files

A file that is compiled to another one is read and compiled first and written last, so that a
failure writes nothing. What is written is found under every spelling of its path and can be loaded
from there, whatever the file was before: the source itself, or a file that the new blob imports. -/

namespace CodeCache

namespace Session

variable {s : Session} {m : Memory} {p q output : Path} {blob : Bytes} {text : String}

theorem run_act {α : Type} (f : Loader → Action α) (s : Session) :
    (act f).run s =
      (((f s.loader).run s.engine).1, { s with engine := ((f s.loader).run s.engine).2 }) := rfl

theorem run_get (s : Session) : (get : Run Session).run s = (.ok s, s) := rfl

def compiled (s : Session) (text : String) : Session :=
  { s with
    engine := { s.engine with events := s.engine.events ++ [.compile (Text.units16 text)] } }

theorem run_compileText (s : Session) (text : String) :
    (compileText text).run s =
      ((s.loader.build.compile text).mapError .compile, s.compiled text) := by
  rw [compileText, run_act, State.compile, Action.run_bind_ok (State.run_record _ s.engine)]
  cases s.loader.build.compile text <;> rfl

theorem run_readText (s : Session) (p : Path) :
    (readText p).run s = ((s.loader.storage.readText p).mapError .storage, s) := by
  rw [readText, Action.run_bind_ok (run_get s)]
  cases s.loader.storage.readText p <;> rfl

theorem run_compileFile (s : Session) (p : Path) :
    (compileFile p).run s = (readText p >>= compileText).run s := by
  rw [Action.run_bind, run_readText, compileFile, run_act, Loader.compileFile]
  cases s.loader.storage.readText p <;> rfl

theorem run_write (hm : s.loader.storage = .memory m) (output : Path) (blob : Bytes) :
    (write output blob).run s =
      (.ok (), { s with
        loader := { s.loader with storage := .memory (m.write output blob) } }) := by
  rw [write, Action.run_bind_ok (run_get s), hm]
  rfl

theorem read_memory (hm : s.loader.storage = .memory m) (q : Path) :
    ((read q).run s).1 = (m.read q).mapError .storage := by
  rw [read, run_act, Loader.readBlob, hm, Storage.read]
  cases m.read q <;> rfl

/-- The blob is stored under a path, nothing else is changed, and every loader over the new files
loads it by a spelling of the path exactly as it loads the bytes. -/
structure Persists (s t : Session) (output : Path) (blob : Bytes) : Prop where
  written : ∀ q, output.same q = true → ((read q).run t).1 = .ok blob
  kept : ∀ q, output.same q = false → ((read q).run t).1 = ((read q).run s).1
  loader : t.loader.build = s.loader.build ∧ t.loader.config = s.loader.config ∧
    t.loader.packages = s.loader.packages
  loads : ∀ l : Loader, l.storage = t.loader.storage → ∀ context (g h : State),
    g.globals context = h.globals context → ∀ q, output.same q = true → ∀ exports,
      (((l.runNamespace context (.path q)).run g).1 = .ok exports ↔
        ((l.runNamespace context (.bytes blob)).run h).1 = .ok exports)

theorem persists_of_write (hm : s.loader.storage = .memory m) {t : Session}
    (loader : t.loader = { s.loader with storage := .memory (m.write output blob) }) :
    s.Persists t output blob := by
  have storage : t.loader.storage = .memory (m.write output blob) := by rw [loader]
  have found (q : Path) (same : output.same q = true) :
      (m.write output blob).get? q = some blob := by
    rw [Memory.get?_write, if_pos same]
  constructor
  case written =>
    intro q same
    rw [read_memory storage, Memory.read, found q same]
    rfl
  case kept =>
    intro q other
    rw [read_memory storage, read_memory hm, Memory.read, Memory.read, Memory.get?_write,
      if_neg (Bool.eq_false_iff.1 other)]
  case loader =>
    rw [loader]
    exact ⟨rfl, rfl, rfl⟩
  case loads =>
    intro l sameFiles context g h sameGlobals q spelled exports
    have files := sameFiles.trans storage
    rw [Loader.outcome_runNamespace files, Loader.outcome_runNamespace files,
      sameGlobals]
    exact Loader.interpret_path_eq_ok (found q spelled)

def stored (s : Session) (m : Memory) (output : Path) (text : String) (blob : Bytes) : Session :=
  { s.compiled text with loader := { s.loader with storage := .memory (m.write output blob) } }

inductive StoreResult (s : Session) (m : Memory) (p output : Path) :
    Except LoadError Bytes → Session → Prop where
  | unread {e : StorageError} (read : s.loader.storage.readText p = .error e) :
      StoreResult s m p output (.error (.storage e)) s
  | refused {text : String} {e : Script.SyntaxError}
      (read : s.loader.storage.readText p = .ok text)
      (refused : s.loader.build.compile text = .error e) :
      StoreResult s m p output (.error (.compile e)) (s.compiled text)
  | stored {text : String} {blob : Bytes} (read : s.loader.storage.readText p = .ok text)
      (compiled : s.loader.build.compile text = .ok blob) :
      StoreResult s m p output (.ok blob) (s.stored m output text blob)

theorem compileFileTo_result (hm : s.loader.storage = .memory m) (p output : Path)
    {outcome : Except LoadError Bytes} {t : Session}
    (run : (compileFileTo p output).run s = (outcome, t)) :
    StoreResult s m p output outcome t := by
  cases read : s.loader.storage.readText p with
  | error e =>
    have failed : (compileFile p).run s = (.error (.storage e), s) := by
      rw [run_compileFile, Action.run_bind, run_readText, read]
      rfl
    rw [compileFileTo, Action.run_bind_error failed] at run
    cases run
    exact .unread read
  | ok text =>
    have opened : (compileFile p).run s = (compileText text).run s := by
      rw [run_compileFile, Action.run_bind, run_readText, read]
      rfl
    cases compiled : s.loader.build.compile text with
    | error e =>
      have failed : (compileFile p).run s = (.error (.compile e), s.compiled text) := by
        rw [opened, run_compileText, compiled]
        rfl
      rw [compileFileTo, Action.run_bind_error failed] at run
      cases run
      exact .refused read compiled
    | ok blob =>
      have made : (compileFile p).run s = (.ok blob, s.compiled text) := by
        rw [opened, run_compileText, compiled]
        rfl
      have written := run_write (s := s.compiled text) hm output blob
      rw [compileFileTo, Action.run_bind_ok made, Action.run_bind_ok written] at run
      cases run
      exact .stored read compiled

theorem readText_memory_eq_ok :
    (Storage.memory m).readText p = .ok text ↔
      ∃ content, m.get? p = some content ∧ Text.Utf8.decode content = .ok text := by
  rw [Storage.readText, bind_eq_ok, Storage.read, Memory.read]
  cases m.get? p with
  | none => simp
  | some content =>
    cases decoded : Text.Utf8.decode content <;> simp [Storage.textOf, decoded]

theorem StoreResult.succeeds_iff {outcome : Except LoadError Bytes} {t : Session}
    (result : StoreResult s m p output outcome t) (hm : s.loader.storage = .memory m) :
    (∃ blob, outcome = .ok blob) ↔ ∃ content text script, m.get? p = some content ∧
      Text.Utf8.decode content = .ok text ∧ Script.parse text = .ok script := by
  constructor
  · rintro ⟨blob, rfl⟩
    cases result with
    | stored read compiled =>
      rw [hm] at read
      obtain ⟨content, found, decoded⟩ := readText_memory_eq_ok.1 read
      obtain ⟨script, parsed, _⟩ := Build.compile_eq_ok compiled
      exact ⟨content, _, script, found, decoded, parsed⟩
  · rintro ⟨content, text, script, found, decoded, parsed⟩
    have readable : s.loader.storage.readText p = .ok text := by
      rw [hm]
      exact readText_memory_eq_ok.2 ⟨content, found, decoded⟩
    cases result with
    | unread read => cases read.symm.trans readable
    | refused read refused =>
      cases readable.symm.trans read
      cases refused.symm.trans (Build.compile_eq parsed s.loader.build)
    | stored => exact ⟨_, rfl⟩

theorem StoreResult.outcome_eq {outcome : Except LoadError Bytes} {t : Session}
    (result : StoreResult s m p output outcome t) :
    outcome = ((readText p >>= compileText).run s).1 := by
  rw [Action.run_bind, run_readText]
  cases result with
  | unread read => rw [read]; rfl
  | refused read refused => simp only [read, Except.mapError, run_compileText, refused]
  | stored read compiled => simp only [read, Except.mapError, run_compileText, compiled]

/-- Compiling a file to another one comes to what compiling its text comes to. It succeeds exactly
where the file is there, is text and parses; a failure leaves the files and the loader as they were,
and a success stores the blob. -/
theorem compile_file_to (s : Session) (m : Memory) (hm : s.loader.storage = .memory m)
    (p output : Path) (outcome : Except LoadError Bytes) (t : Session)
    (run : (compileFileTo p output).run s = (outcome, t)) :
    outcome = ((readText p >>= compileText).run s).1 ∧
    ((∃ blob, outcome = .ok blob) ↔ ∃ content text script, m.get? p = some content ∧
      Text.Utf8.decode content = .ok text ∧ Script.parse text = .ok script) ∧
    (∀ e, outcome = .error e → t.loader = s.loader) ∧
    ∀ blob, outcome = .ok blob → s.Persists t output blob := by
  have result := compileFileTo_result hm p output run
  refine ⟨result.outcome_eq, result.succeeds_iff hm, ?_, ?_⟩
  · rintro e rfl
    cases result with
    | unread | refused => rfl
  · rintro blob rfl
    cases result with
    | stored read compiled => exact persists_of_write hm rfl

def sources : Memory where
  files := [(⟨"src/a.mjs"⟩, Text.Utf8.encode Sample.answer)]

def compiling : Session where
  loader := { Loader.plain 1 with storage := .memory sources }

/-- A source that is compiled over itself, by another spelling of its path, and then loaded; and a
missing one. -/
theorem compile_file_to_in_place :
    ∃ blob t u, (compileFileTo ⟨"src/a.mjs"⟩ ⟨"src//a.mjs"⟩).run compiling = (.ok blob, t) ∧
      ((read ⟨"src/a.mjs"⟩).run t).1 = .ok blob ∧
      ((t.loader.runNamespace none (.path ⟨"src/./a.mjs"⟩)).run {}).1 =
        .ok [("default", .int 42)] ∧
      (compileFileTo ⟨"b.mjs"⟩ ⟨"src/a.mjs"⟩).run compiling =
        (.error (.storage (.fileNotFound ⟨"b.mjs"⟩)), u) ∧
      u.loader = compiling.loader := by
  have found : sources.get? ⟨"src/a.mjs"⟩ = some (Text.Utf8.encode Sample.answer) := by
    simp [Memory.get?, sources, Path.same_refl]
  rcases run : (compileFileTo ⟨"src/a.mjs"⟩ ⟨"src//a.mjs"⟩).run compiling with ⟨outcome, t⟩
  rcases failed : (compileFileTo ⟨"b.mjs"⟩ ⟨"src/a.mjs"⟩).run compiling with ⟨failure, u⟩
  obtain ⟨_, succeeds, _, persists⟩ := compile_file_to compiling sources rfl _ _ _ _ run
  obtain ⟨blob, rfl⟩ :=
    succeeds.2 ⟨_, _, _, found, Text.Utf8.decode_encode Sample.answer, Loader.parse_answer⟩
  obtain ⟨_, _, unchanged, _⟩ := compile_file_to compiling sources rfl _ _ _ _ failed
  have text : compiling.loader.storage.readText ⟨"src/a.mjs"⟩ = .ok Sample.answer :=
    readText_memory_eq_ok.2 ⟨_, found, Text.Utf8.decode_encode Sample.answer⟩
  cases compileFileTo_result rfl _ _ failed with
  | refused missing | stored missing => cases missing
  | unread missing =>
    cases missing
    cases compileFileTo_result rfl _ _ run with
    | stored read compiled =>
      cases text.symm.trans read
      have persists := persists blob rfl
      refine ⟨blob, _, _, rfl, persists.written _ (by decide), ?_, rfl, unchanged _ rfl⟩
      refine (persists.loads _ rfl none {} {} rfl _ (by decide) _).2 ?_
      rw [Loader.outcome_runNamespace rfl]
      have decoded := Loader.decodeBlob_compiled
        (l := (compiling.stored sources ⟨"src//a.mjs"⟩ Sample.answer blob).loader) rfl
        (Loader.plain_version 1) (Loader.plain_reference 1) Patch.Table.builtin_within
        Loader.parse_answer (by decide) (by decide) compiled none
      exact Loader.interpretBlob_eq_ok.2 ⟨_, [], decoded, rfl, rfl⟩

end Session

end CodeCache
