import CodeCache.Proofs.Interpreter

/-! # Where failures come from

A blob fails to load for its own bytes, for an import that leads back into the chain, for a file or
a package that cannot be had, or for its body. The failure of an import is the failure of the blob
that imports it, so that every failure has a place at the end of a chain. -/

namespace CodeCache

section

variable {ε α β : Type} {P : ε → Prop}

theorem map_eq_error {x : Except ε α} {f : α → β} {e : ε} (h : x.map f = .error e) :
    x = .error e := by
  cases x with
  | error e' =>
    cases h
    rfl
  | ok a => cases h

/-- Whatever the computation fails with satisfies the predicate. -/
def FailsOnly (P : ε → Prop) (x : Except ε α) : Prop := ∀ e, x = .error e → P e

theorem FailsOnly.ok (a : α) : FailsOnly P (.ok a : Except ε α) := by
  intro e h
  cases h

theorem FailsOnly.error {e : ε} (h : P e) : FailsOnly P (.error e : Except ε α) := by
  intro e' same
  cases same
  exact h

theorem FailsOnly.mono {Q : ε → Prop} {x : Except ε α} (h : FailsOnly P x)
    (imp : ∀ e, P e → Q e) : FailsOnly Q x := by
  intro e failed
  exact imp e (h e failed)

theorem FailsOnly.bind {x : Except ε α} {f : α → Except ε β} (hx : FailsOnly P x)
    (hf : ∀ a, FailsOnly P (f a)) : FailsOnly P (x >>= f) := by
  intro e h
  cases first : x with
  | error e' =>
    rw [first] at h
    cases h
    exact hx e first
  | ok a =>
    rw [first] at h
    exact hf a e h

theorem FailsOnly.foldlM {f : β → α → Except ε β} {xs : List α}
    (h : ∀ b, ∀ x ∈ xs, FailsOnly P (f b x)) (b : β) : FailsOnly P (xs.foldlM f b) := by
  induction xs generalizing b with
  | nil => exact .ok b
  | cons x xs ih =>
    rw [List.foldlM_cons]
    refine (h b x List.mem_cons_self).bind fun next => ?_
    exact ih (fun b y member => h b y (List.mem_cons_of_mem x member)) next

end

namespace LoadError

inductive OfScript : LoadError → Prop where
  | missingExport (specifier name : String) : OfScript (.link (.missingExport specifier name))
  | expression (e : EvalError) : OfScript (.evaluation (.expression e))
  | undefinedLocal (name : String) : OfScript (.evaluation (.undefinedLocal name))
  | uncaught (text : String) : OfScript (.evaluation (.uncaught text))

inductive OfBody : LoadError → Prop where
  | missingExport (specifier name : String) : OfBody (.link (.missingExport specifier name))
  | unlinkedImport (specifier : String) : OfBody (.link (.unlinkedImport specifier))
  | expression (e : EvalError) : OfBody (.evaluation (.expression e))
  | undefinedLocal (name : String) : OfBody (.evaluation (.undefinedLocal name))
  | uncaught (text : String) : OfBody (.evaluation (.uncaught text))

theorem OfScript.body {e : LoadError} (own : e.OfScript) : e.OfBody := by
  cases own with
  | missingExport specifier name => exact .missingExport specifier name
  | expression e => exact .expression e
  | undefinedLocal name => exact .undefinedLocal name
  | uncaught text => exact .uncaught text

inductive OfSetup : LoadError → Prop where
  | undeclaredExport (name : String) : OfSetup (.evaluation (.undeclaredExport name))
  | setup (message : String) : OfSetup (.evaluation (.setup message))

inductive OfModule : LoadError → Prop where
  | body {e : LoadError} (own : e.OfBody) : OfModule e
  | noModule (id : ModuleId) : OfModule (.noModule id)
  | unavailable (status : Status) : OfModule (.evaluation (.unavailable status))
  | undeclaredExport (name : String) : OfModule (.evaluation (.undeclaredExport name))
  | setup (message : String) : OfModule (.evaluation (.setup message))

theorem OfSetup.module {e : LoadError} (own : e.OfSetup) : e.OfModule := by
  cases own with
  | undeclaredExport name => exact .undeclaredExport name
  | setup message => exact .setup message

inductive OfBytes : LoadError → Prop where
  | version (text : String) : OfBytes (.version text)
  | compile (e : Script.SyntaxError) : OfBytes (.compile e)
  | header (e : HeaderError) : OfBytes (.header e)
  | cacheRejected (origin : Option Path) : OfBytes (.cacheRejected origin)

end LoadError

namespace Script

open LoadError (OfScript)

variable {globals : Scope} {exportsOf : String → Except LoadError Fields}

theorem evaluated_fails (globals : Scope) (f : Frame) (e : Expr) :
    FailsOnly OfScript (evaluated globals f e) := by
  rw [evaluated]
  cases e.eval (f.scope globals) with
  | ok v => exact .ok v
  | error e => exact .error (.expression e)

theorem exportLocals_fails (globals : Scope) (f : Frame) (names : List (String × String)) :
    FailsOnly OfScript (exportLocals globals f names) := by
  induction names generalizing f with
  | nil => exact .ok f
  | cons pair rest ih =>
    obtain ⟨name, exported⟩ := pair
    rw [exportLocals]
    cases f.scope globals name with
    | none => exact .error (.undefinedLocal name)
    | some v => exact ih _

theorem runStmt_fails (globals : Scope) (f : Frame) (stmt : Stmt) :
    FailsOnly OfScript (runStmt globals f stmt) := by
  cases stmt with
  | declare name init exported => exact (evaluated_fails globals f init).bind fun v => .ok _
  | exportDefault e => exact (evaluated_fails globals f e).bind fun v => .ok _
  | exportList names => exact exportLocals_fails globals f names
  | throw e => exact (evaluated_fails globals f e).bind fun v => .error (.uncaught _)
  | expr e => exact (evaluated_fails globals f e).bind fun v => .ok _

theorem bind_fails (specifier : String) (exports locals : Fields) (b : Binding) :
    FailsOnly OfScript (bind specifier exports locals b) := by
  have found (name : String) : FailsOnly OfScript (exportOf exports specifier name) := by
    rw [exportOf]
    cases Entries.get? exports name with
    | some v => exact .ok v
    | none => exact .error (.missingExport specifier name)
  cases b with
  | defaultExport name => exact (found "default").bind fun v => .ok _
  | named imported name => exact (found imported).bind fun v => .ok _
  | everything name => exact .ok _

theorem run_fails {P : LoadError → Prop} (globals : Scope) (own : ∀ e : LoadError, e.OfScript → P e)
    {script : Script} (found : ∀ i ∈ script.imports, FailsOnly P (exportsOf i.specifier)) :
    FailsOnly P (script.run globals exportsOf) := by
  refine FailsOnly.bind (.foldlM (fun locals i member => ?_) []) fun locals => ?_
  · refine (found i member).bind fun exports => ?_
    exact .foldlM (fun locals b _ => (bind_fails i.specifier exports locals b).mono own) locals
  · have ran : FailsOnly OfScript (script.body.foldlM (runStmt globals) { locals }) :=
      .foldlM (fun f stmt _ => runStmt_fails globals f stmt) _
    exact (ran.mono own).bind fun f => .ok f.exports

end Script

namespace State

open LoadError (OfModule OfSetup)

theorem exportsOf_fails (s : State) (deps : List (String × ModuleId)) (specifier : String) :
    FailsOnly OfModule (s.exportsOf deps specifier) := by
  rw [exportsOf]
  split
  · exact .error (.body (.unlinkedImport specifier))
  · rw [run_namespaceOf]
    split
    · split
      · exact .ok _
      · exact .error (.unavailable _)
    · exact .error (.noModule _)

theorem setup_fails (names : List String) (setup : Option Setup) :
    FailsOnly OfSetup (Setup.run names setup) := by
  have sets (exports : Fields) (values : List (String × Value)) :
      FailsOnly OfSetup (Setup.setAll exports values) := by
    induction values generalizing exports with
    | nil => exact .ok _
    | cons pair values ih =>
      obtain ⟨name, v⟩ := pair
      rw [Setup.setAll]
      split
      · exact ih _
      · exact .error (.undeclaredExport name)
  cases setup with
  | none => exact .ok _
  | some setup =>
    refine (sets _ setup.exports).bind fun exports => ?_
    cases setup.failure with
    | some message => exact .error (.setup message)
    | none => exact .ok _

theorem runModule_fails (s : State) (r : ModuleRecord) : FailsOnly OfModule (s.runModule r) := by
  rw [runModule]
  cases r.body with
  | source script =>
    exact Script.run_fails _ (fun _ own => .body own.body) fun i _ =>
      s.exportsOf_fails r.deps i.specifier
  | placeholder p => exact .ok _
  | synthetic names setup => exact (setup_fails names setup).mono fun _ own => own.module

end State

namespace Loader

open LoadError (OfBody OfBytes)

variable {l : Loader} {globals : Scope} {e : LoadError}

theorem gathered_fails (found : Entries Fields) (specifier : String) :
    FailsOnly OfBody (gathered found specifier) := by
  rw [gathered]
  cases Entries.get? found specifier with
  | some exports => exact .ok exports
  | none => exact .error (.unlinkedImport specifier)

theorem decodeBlob_fails (l : Loader) (origin : Option Path) (blob : Bytes) :
    FailsOnly OfBytes (l.decodeBlob origin blob) := by
  rw [decodeBlob]
  split
  · exact .error (.version _)
  split
  · exact .error (.compile _)
  dsimp only
  split
  · exact .error (.header _)
  split
  · exact .ok _
  · exact .error (.cacheRejected origin)

theorem gather_error {exports : String → Except LoadError Fields} {specifiers : List String}
    (h : gather exports specifiers = .error e) :
    ∃ specifier ∈ specifiers, exports specifier = .error e := by
  induction specifiers with
  | nil => cases h
  | cons specifier rest ih =>
    rw [gather] at h
    cases first : exports specifier with
    | error e' =>
      rw [first] at h
      cases h
      exact ⟨specifier, List.mem_cons_self, first⟩
    | ok offered =>
      cases others : gather exports rest with
      | error e' =>
        rw [first, others] at h
        cases h
        obtain ⟨later, member, failed⟩ := ih others
        exact ⟨later, List.mem_cons_of_mem _ member, failed⟩
      | ok found =>
        rw [first, others] at h
        cases h

theorem interpretBlob_error {pathExports : Path → Except LoadError Fields} {origin : Option Path}
    {blob : Bytes} (h : l.interpretBlob pathExports globals origin blob = .error e) :
    e.OfBytes ∨ e.OfBody ∨ ∃ script, l.decodeBlob origin blob = .ok script ∧
      ∃ specifier ∈ script.specifiers, l.importExports pathExports specifier = .error e := by
  rw [interpretBlob] at h
  cases decoded : l.decodeBlob origin blob with
  | error e' =>
    rw [decoded] at h
    cases h
    exact .inl (decodeBlob_fails l origin blob e decoded)
  | ok script =>
    rw [decoded] at h
    change l.interpretScript pathExports globals script = .error e at h
    rw [interpretScript] at h
    cases found : gather (l.importExports pathExports) script.specifiers with
    | error e' =>
      rw [found] at h
      cases h
      exact .inr (.inr ⟨script, rfl, gather_error found⟩)
    | ok exports =>
      rw [found] at h
      have body : FailsOnly OfBody (script.run globals (gathered exports)) :=
        Script.run_fails globals (fun _ own => own.body) fun i _ =>
          gathered_fails exports i.specifier
      exact .inr (.inl (body e h))

/-- The file at the path is an accepted blob that has the import. -/
def HasImport (l : Loader) (m : Memory) (p : Path) (specifier : String) : Prop :=
  ∃ blob script, m.get? p = some blob ∧ l.decodeBlob (some p) blob = .ok script ∧
    specifier ∈ script.specifiers

inductive Fails (l : Loader) (m : Memory) : List Path → Path → LoadError → Prop where
  | cycle {chain : List Path} {p : Path} (closed : chain.any (·.same p) = true) :
      Fails l m chain p (.link (.importCycle (chain ++ [p])))
  | missing {chain : List Path} {p : Path} (missing : m.get? p = none) :
      Fails l m chain p (.storage (.fileNotFound p))
  | bytes {chain : List Path} {p : Path} {e : LoadError} (refused : e.OfBytes) :
      Fails l m chain p e
  | body {chain : List Path} {p : Path} {e : LoadError} (failed : e.OfBody) : Fails l m chain p e
  | package {chain : List Path} {p : Path} {specifier : String} {e : LoadError}
      (imported : l.HasImport m p specifier)
      (answer : l.packages.answer specifier = .error e) : Fails l m chain p e
  | nested {chain : List Path} {p : Path} {specifier : String} {e : LoadError}
      (fresh : chain.any (·.same p) = false) (imported : l.HasImport m p specifier)
      (bytecode : l.config.isBytecode specifier = true)
      (fails : Fails l m (chain ++ [p]) (l.config.blobPath specifier) e) : Fails l m chain p e

/-- By recursion over the chain, as the interpreter goes. -/
theorem interpretPath_fails (l : Loader) (m : Memory) (globals : Scope) (chain : List Path)
    (p : Path) : FailsOnly (l.Fails m chain p) (l.interpretPath m globals chain p) := by
  fun_induction interpretPath with
  | case1 chain p closed => exact .error (.cycle closed)
  | case2 chain p fresh missing => exact .error (.missing missing)
  | case3 chain p fresh blob file ih =>
    intro e failed
    rcases interpretBlob_error failed with bytes | body | ⟨script, decoded, specifier, member, h⟩
    · exact .bytes bytes
    · exact .body body
    have imported : l.HasImport m p specifier := ⟨blob, script, file, decoded, member⟩
    rw [importExports] at h
    split at h
    · rename_i bytecode
      exact .nested (Bool.eq_false_iff.2 fresh) imported bytecode (ih _ e h)
    · exact .package imported (map_eq_error h)

end Loader

end CodeCache
