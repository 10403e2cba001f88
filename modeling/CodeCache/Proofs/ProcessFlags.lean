import CodeCache.Flags
import CodeCache.Session
import Mathlib

/-! # The flags of a process

The sessions of a process share one report of the flags set so far. An engine whose version is not
understood is refused and leaves the process as it is. The first engine whose version is understood
gets its flags, and from then on every session is given the report of that engine, whatever its own
version and configuration. -/

namespace CodeCache

structure Process (ι : Type) where
  report : Option FlagReport := none
  sessions : ι → Session

namespace Process

variable {ι : Type}

def version? (p : Process ι) (i : ι) : Option Version :=
  Version.parse? (p.sessions i).loader.build.version

def refusal (p : Process ι) (i : ι) : Except LoadError FlagReport :=
  .error (.version (p.sessions i).loader.build.version)

theorem unread_or_first (p : Process ι) (calls : List ι) :
    (∀ i ∈ calls, p.version? i = none) ∨
      ∃ early k late v, calls = early ++ k :: late ∧ (∀ i ∈ early, p.version? i = none) ∧
        p.version? k = some v := by
  induction calls with
  | nil => exact .inl (List.forall_mem_nil _)
  | cons i calls ih =>
    cases read : p.version? i with
    | some v => exact .inr ⟨[], i, calls, v, rfl, List.forall_mem_nil _, read⟩
    | none =>
      rcases ih with unread | ⟨early, k, late, v, rfl, unread, found⟩
      · exact .inl (List.forall_mem_cons.2 ⟨read, unread⟩)
      · exact .inr ⟨i :: early, k, late, v, rfl, List.forall_mem_cons.2 ⟨read, unread⟩, found⟩

variable [DecidableEq ι]

def setFlags (p : Process ι) (i : ι) : Except LoadError FlagReport × Process ι :=
  let session := p.sessions i
  let outcome := Flags.setOnce p.report session.loader.build.version session.loader.config
  (outcome.answer,
    { report := outcome.process
      sessions := Function.update p.sessions i
        { session with flags := session.flags ++ outcome.set } })

def setFlagsEach (p : Process ι) : List ι → List (Except LoadError FlagReport) × Process ι
  | [] => ([], p)
  | i :: calls =>
    let (answer, p) := p.setFlags i
    let (answers, p) := p.setFlagsEach calls
    (answer :: answers, p)

/-- The process once one session's engine has got the flags of a report. -/
def reported (p : Process ι) (i : ι) (report : FlagReport) : Process ι where
  report := some report
  sessions := Function.update p.sessions i
    { p.sessions i with flags := (p.sessions i).flags ++ report.flags }

variable {p : Process ι} {report : FlagReport} {i : ι}

theorem update_nothing (p : Process ι) (i : ι) :
    Function.update p.sessions i { p.sessions i with flags := (p.sessions i).flags ++ [] } =
      p.sessions := by
  rw [List.append_nil]
  exact Function.update_eq_self i p.sessions

theorem setFlags_of_report (done : p.report = some report) (i : ι) :
    p.setFlags i = (.ok report, p) := by
  obtain ⟨_, sessions⟩ := p
  cases done
  simp only [setFlags, Flags.setOnce]
  rw [update_nothing ⟨some report, sessions⟩ i]

theorem setFlags_of_none (fresh : p.report = none) (unread : p.version? i = none) :
    p.setFlags i = (p.refusal i, p) := by
  obtain ⟨_, sessions⟩ := p
  cases fresh
  rw [version?] at unread
  simp only [setFlags, Flags.setOnce, unread, refusal]
  rw [update_nothing ⟨none, sessions⟩ i]

theorem setFlags_of_version (fresh : p.report = none) {v : Version} (read : p.version? i = some v) :
    p.setFlags i =
      (.ok ⟨v, Flags.forVersion v (p.sessions i).loader.config⟩,
        p.reported i ⟨v, Flags.forVersion v (p.sessions i).loader.config⟩) := by
  rw [version?] at read
  simp only [setFlags, Flags.setOnce, fresh, read, reported]

theorem setFlagsEach_cons {answer : Except LoadError FlagReport} {q : Process ι}
    (called : p.setFlags i = (answer, q)) (calls : List ι) :
    p.setFlagsEach (i :: calls) =
      (answer :: (q.setFlagsEach calls).1, (q.setFlagsEach calls).2) := by
  rw [setFlagsEach, called]

theorem setFlagsEach_append (p : Process ι) (calls more : List ι) :
    p.setFlagsEach (calls ++ more) =
      ((p.setFlagsEach calls).1 ++ ((p.setFlagsEach calls).2.setFlagsEach more).1,
        ((p.setFlagsEach calls).2.setFlagsEach more).2) := by
  induction calls generalizing p with
  | nil => rfl
  | cons i calls ih => simp only [List.cons_append, setFlagsEach, ih]

theorem setFlagsEach_of_report (done : p.report = some report) (calls : List ι) :
    p.setFlagsEach calls = (calls.map fun _ => .ok report, p) := by
  induction calls with
  | nil => rfl
  | cons i calls ih =>
    rw [setFlagsEach_cons (setFlags_of_report done i), ih]
    rfl

theorem setFlagsEach_of_none (fresh : p.report = none) {calls : List ι}
    (unread : ∀ i ∈ calls, p.version? i = none) :
    p.setFlagsEach calls = (calls.map p.refusal, p) := by
  induction calls with
  | nil => rfl
  | cons i calls ih =>
    obtain ⟨here, later⟩ := List.forall_mem_cons.1 unread
    rw [setFlagsEach_cons (setFlags_of_none fresh here), ih later]
    rfl

theorem nodup_forVersion (v : Version) (c : Config) : (Flags.forVersion v c).Nodup := by
  rw [Flags.forVersion]
  split <;> decide

/-- In a fresh process the first session whose version is understood gets its flags, once each. The
calls before it are refused and change nothing, and all calls after it are answered with its report
and change nothing. -/
theorem flags_set_once (fresh : p.report = none) (calls : List ι) :
    (∀ i ∈ calls, p.version? i = none) ∧ p.setFlagsEach calls = (calls.map p.refusal, p) ∨
      ∃ early k late v, calls = early ++ k :: late ∧ (∀ i ∈ early, p.version? i = none) ∧
        p.version? k = some v ∧
        let report : FlagReport := ⟨v, Flags.forVersion v (p.sessions k).loader.config⟩
        report.flags.Nodup ∧
          (∀ calls, calls <+: early → p.setFlagsEach calls = (calls.map p.refusal, p)) ∧
          ∀ calls, calls <+: late → p.setFlagsEach (early ++ k :: calls) =
            (early.map p.refusal ++ .ok report :: calls.map fun _ => .ok report,
              p.reported k report) := by
  rcases p.unread_or_first calls with unread | ⟨early, k, late, v, cut, unread, read⟩
  · exact .inl ⟨unread, setFlagsEach_of_none fresh unread⟩
  refine .inr ⟨early, k, late, v, cut, unread, read, ?_⟩
  intro report
  refine ⟨nodup_forVersion v _, ?_, ?_⟩
  · intro calls start
    exact setFlagsEach_of_none fresh fun i member => unread i (start.subset member)
  · intro calls _
    have first : p.setFlags k = (.ok report, p.reported k report) := setFlags_of_version fresh read
    have last : (p.reported k report).setFlagsEach calls =
        (calls.map fun _ => .ok report, p.reported k report) := setFlagsEach_of_report rfl calls
    rw [setFlagsEach_append, setFlagsEach_of_none fresh unread, setFlagsEach_cons first, last]

def sessionOf (version : String) : Session where
  loader :=
    { build := .ofVersion version 1, config := {}, packages := .ofTable [], storage := .memory {} }

def threeEngines : Process (Fin 3) where
  sessions := ![sessionOf "unknown", sessionOf "v14.17.0", sessionOf "v10.0.0"]

theorem flags_set_once_engines :
    threeEngines.report = none ∧
      (threeEngines.setFlagsEach [0, 1, 2, 0]).1 =
        [.error (.version "unknown"), .ok ⟨⟨14, 17, 0⟩, ["--no-lazy", "--no-flush-bytecode"]⟩,
          .ok ⟨⟨14, 17, 0⟩, ["--no-lazy", "--no-flush-bytecode"]⟩,
          .ok ⟨⟨14, 17, 0⟩, ["--no-lazy", "--no-flush-bytecode"]⟩] ∧
      ∀ i, ((threeEngines.setFlagsEach [0, 1, 2, 0]).2.sessions i).flags =
        if i = 1 then ["--no-lazy", "--no-flush-bytecode"] else [] := by
  have unread : threeEngines.version? 0 = none := by
    show Version.parse? "unknown" = none
    decide
  have read : threeEngines.version? 1 = some ⟨14, 17, 0⟩ := by
    show Version.parse? "v14.17.0" = _
    decide
  refine ⟨rfl, ?_⟩
  rcases flags_set_once (p := threeEngines) rfl [0, 1, 2, 0] with
    ⟨every, _⟩ | ⟨early, k, late, v, cut, before, found, _, _, answers⟩
  · exact absurd (read.symm.trans (every 1 (by decide))) (by simp)
  rcases early with _ | ⟨i, _ | ⟨j, rest⟩⟩
  · cases cut
    exact absurd (found.symm.trans unread) (by simp)
  · cases cut
    cases found.symm.trans read
    have run := answers _ (List.prefix_refl _)
    refine ⟨congrArg Prod.fst run, fun i => ?_⟩
    refine (congrArg (fun result => (result.2.sessions i).flags) run).trans ?_
    fin_cases i <;> rfl
  · obtain ⟨_, cut⟩ := List.cons.inj cut
    obtain ⟨rfl, _⟩ := List.cons.inj cut
    exact absurd (read.symm.trans (before 1 (by simp))) (by simp)

end Process

end CodeCache
