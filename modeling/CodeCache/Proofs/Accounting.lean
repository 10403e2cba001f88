import CodeCache.Proofs.ImportTree
import CodeCache.Proofs.Nesting

/-! # What a run creates

A run that succeeds creates one module for every node of the import tree of its blob, numbered from
the first free number on, and asks for the packages of the tree. The proof follows the run: every
step leads to a list of modules that is known in full. -/

namespace CodeCache

variable {α β : Type}

theorem modify_append (before after : List α) (x : α) (f : α → α) :
    (before ++ x :: after).modify before.length f = before ++ f x :: after := by
  rw [List.modify_eq_take_drop]
  simp

namespace State

section

variable {a b : Action α} {f : α → Action β} {s : State} {x : α} {y : β}
  {modules modules' : List ModuleRecord} {asked asked' : List String} {events : List Event}

/-- The computation returns a value, leaves exactly these modules and asks for these packages. It
does not touch the contexts. -/
def Leads (a : Action α) (s : State) (x : α) (modules : List ModuleRecord) (asked : List String) :
    Prop :=
  ∃ events, a.run s = (.ok x, { s with modules, requests := s.requests ++ asked, events })

theorem Leads.quiet (run : a.run s = (.ok x, { s with modules, events })) :
    Leads a s x modules [] := by
  refine ⟨events, ?_⟩
  rw [run, List.append_nil]

theorem Leads.still (run : a.run s = (.ok x, s)) (same : s.modules = modules) :
    Leads a s x modules [] := by
  subst same
  exact .quiet run

theorem Leads.bind (first : Leads a s x modules asked)
    (next : ∀ t : State, t.contexts = s.contexts → t.modules = modules →
      Leads (f x) t y modules' asked') :
    Leads (a >>= f) s y modules' (asked ++ asked') := by
  obtain ⟨events, run⟩ := first
  obtain ⟨events', run'⟩ :=
    next { s with modules, requests := s.requests ++ asked, events } rfl rfl
  refine ⟨events', ?_⟩
  rw [Action.run_bind_ok run, run', List.append_assoc]

theorem Leads.bind_quiet (first : Leads a s x modules asked)
    (next : ∀ t : State, t.contexts = s.contexts → t.modules = modules →
      Leads (f x) t y modules' []) : Leads (a >>= f) s y modules' asked := by
  rw [← List.append_nil asked]
  exact first.bind next

theorem Leads.after (h : Leads b { s with events } x modules asked)
    (run : a.run s = b.run { s with events }) : Leads a s x modules asked := by
  obtain ⟨events', run'⟩ := h
  exact ⟨events', run.trans run'⟩

end

section

variable {resolve : Resolver} {depth : Nat} {seen seen' : Seen} {deps : List (String × ModuleId)}
  {r : ModuleRecord} {s : State} {id : ModuleId} {context : Option String} {p : Package}
  {before after modules : List ModuleRecord} {asked : List String} {exports : Fields}

theorem getElem?_of_append (modules : s.modules = before ++ r :: after) :
    s.modules[before.length]? = some r := by
  rw [modules]
  simp

theorem modified_append (modules : s.modules = before ++ r :: after)
    (f : ModuleRecord → ModuleRecord) :
    (s.modified before.length f).modules = before ++ f r :: after := by
  rw [modified, modules]
  exact modify_append before after r f

theorem leads_linkWithin (found : s.modules[id]? = some r) (status : r.status = .unlinked)
    (imports : Leads (linkImports resolve (linkWithin resolve depth) id r.body.specifiers seen)
      (s.modified id ({ · with status := .linking })) (seen', deps) modules asked) :
    Leads (linkWithin resolve (depth + 1) id seen) s seen'
      (modules.modify id ({ · with deps, status := .linked })) asked := by
  obtain ⟨events, run⟩ := imports
  exact ⟨events, run_linkWithin_of_ok found status run⟩

theorem leads_evaluateWithin (found : s.modules[id]? = some r) (status : r.status = .linked)
    (imports : Leads (r.deps.forM fun dep => evaluateWithin depth dep.2)
      (s.modified id fun r => { r with status := .evaluating, body := r.body.begun }) () modules
      asked)
    (ran : ∀ t : State, t.contexts = s.contexts → t.modules = modules →
      runModule t r = .ok exports) :
    Leads (evaluateWithin (depth + 1) id) s ()
      (modules.modify id ({ · with exports, status := .evaluated })) asked := by
  obtain ⟨events, run⟩ := imports
  exact ⟨events, run_evaluateWithin_of_ok found status run (ran _ rfl rfl)⟩

theorem leads_link_evaluated (resolve : Resolver) (depth : Nat) (seen : Seen)
    (modules : s.modules = before ++ r :: after) (status : r.status = .evaluated) :
    Leads (linkWithin resolve (depth + 1) before.length seen) s seen (before ++ r :: after) [] :=
  .still (run_linkWithin_of_linked resolve depth seen (getElem?_of_append modules) (.inr status))
    modules

theorem leads_link_tree {tree : ImportTree} (resolve : Resolver) (depth : Nat) (seen : Seen)
    (modules : s.modules = before ++ tree.records context before.length) :
    Leads (linkWithin resolve (depth + 1) before.length seen) s seen
      (before ++ tree.records context before.length) [] :=
  leads_link_evaluated resolve depth seen modules rfl

theorem leads_evaluate_evaluated (depth : Nat) (modules : s.modules = before ++ r :: after)
    (status : r.status = .evaluated) :
    Leads (evaluateWithin (depth + 1) before.length) s () (before ++ r :: after) [] :=
  .still (run_evaluateWithin_of_evaluated depth (getElem?_of_append modules) status) modules

theorem leads_link_package (resolve : Resolver) (depth : Nat) (seen : Seen)
    (modules : s.modules = before ++ .ofPending context .unlinked p :: after) :
    Leads (linkWithin resolve (depth + 1) before.length seen) s seen
      (before ++ .ofPending context .linked p :: after) [] := by
  have linked : Leads (linkWithin resolve (depth + 1) before.length seen) s seen _ [] :=
    leads_linkWithin (getElem?_of_append modules) rfl (.still rfl (modified_append modules _))
  rwa [modify_append] at linked

theorem leads_evaluate_package (depth : Nat)
    (modules : s.modules = before ++ .ofPending context .linked p :: after) :
    Leads (evaluateWithin (depth + 1) before.length) s ()
      (before ++ .ofPackage context p :: after) [] := by
  have evaluated : Leads (evaluateWithin (depth + 1) before.length) s () _ [] :=
    leads_evaluateWithin (getElem?_of_append modules) rfl (.still rfl (modified_append modules _))
      fun _ _ _ => p.run_setup
  rwa [modify_append] at evaluated

end

section

variable {resolve : Resolver} {linkDep : ModuleId → Seen → Action Seen} {depth : Nat} {seen : Seen}
  {s : State} {referrer : ModuleId} {context : Option String} {specifier : String}
  {specifiers : List String} {deps : List (String × ModuleId)}
  {made linked before modules : List ModuleRecord} {asked asked' : List String}

/-- A module is made for a specifier that was not seen before and is linked, and then the other
specifiers are linked. -/
theorem leads_linkImports_cons (unseen : Entries.get? seen specifier = none)
    (resolved : ∀ events, Leads (resolve specifier referrer) { s with events } s.modules.length made
      asked)
    (link : ∀ (t : State) (seen : Seen), t.modules = made →
      Leads (linkDep s.modules.length seen) t seen linked [])
    (others : ∀ t : State, t.contexts = s.contexts → t.modules = linked →
      Leads (linkImports resolve linkDep referrer specifiers
        (seen.insert specifier s.modules.length)) t
        (Entries.insertAll (seen.insert specifier s.modules.length) deps, deps) modules asked') :
    Leads (linkImports resolve linkDep referrer (specifier :: specifiers) seen) s
      (Entries.insertAll seen ((specifier, s.modules.length) :: deps),
        (specifier, s.modules.length) :: deps) modules (asked ++ asked') := by
  have once := (resolved _).after (run_resolveOnce_of_unseen unseen resolve referrer s)
  rw [linkImports]
  apply once.bind
  intro t same made
  rw [← List.nil_append asked']
  apply (link t _ made).bind
  intro u same' linked
  apply (others u (same'.trans same) linked).bind_quiet
  intro v _ modules
  exact .still rfl modules

/-- The modules of a forest whose specifiers have been linked are evaluated: by induction on the
forest, whose packages at the top are all that is left to evaluate. -/
theorem leads_evaluate_forest (forest : ImportForest) (depth : Nat) {n : Nat}
    (size : before.length = n) (modules : s.modules = before ++ forest.linked context n) :
    Leads ((forest.deps n).forM fun dep => evaluateWithin (depth + 1) dep.2) s ()
      (before ++ forest.records context n) [] := by
  induction forest generalizing before n s with
  | none => exact .still rfl modules
  | package specifier p rest ih =>
    subst size
    rw [ImportForest.records, List.append_cons]
    apply (leads_evaluate_package depth modules).bind
    intro t _ modules
    rw [List.append_cons] at modules
    exact ih (by simp) modules
  | blob specifier script exports imports rest _ ih =>
    subst size
    rw [ImportForest.records, List.append_cons, ← List.append_assoc]
    apply (leads_evaluate_evaluated depth modules rfl).bind
    intro t _ modules
    rw [List.append_cons, ← List.append_assoc] at modules
    refine ih ?_ modules
    simp only [List.length_append, List.length_singleton, ImportForest.length_records]

theorem bound_forest (forest : ImportForest) {n : Nat} (size : before.length = n)
    (modules : s.modules = before ++ forest.records context n) :
    Bound ModuleRecord.Exports 0 s (forest.deps n) forest.exports := by
  induction forest generalizing before n with
  | none => exact .nil
  | package specifier p rest ih =>
    subst size
    refine .cons (Nat.zero_le _) (getElem?_of_append modules) ⟨rfl, rfl⟩ ?_
    rw [ImportForest.records, List.append_cons] at modules
    exact ih (by simp) modules
  | blob specifier script exports imports rest _ ih =>
    subst size
    refine .cons (Nat.zero_le _) (getElem?_of_append modules) ⟨rfl, rfl⟩ ?_
    rw [ImportForest.records, List.append_cons, ← List.append_assoc] at modules
    refine ih ?_ modules
    simp only [List.length_append, List.length_singleton, ImportForest.length_records]

end

section

variable {resolve : Resolver} {start s : State} {context : Option String} {specifiers : List String}
  {forest : ImportForest} {script : Script} {before : List ModuleRecord} {exports : Fields}

/-- Linking specifiers that were not seen before makes the modules of the forest, for a referrer in
the context and whatever modules there are. The contexts are those of the start. -/
def Links (start : State) (context : Option String) (resolve : Resolver) (specifiers : List String)
    (forest : ImportForest) : Prop :=
  ∀ (s : State) (referrer : ModuleId) (r : ModuleRecord) (seen : Seen) (depth : Nat),
    s.contexts = start.contexts → s.modules[referrer]? = some r → r.context = context →
      (∀ specifier ∈ specifiers, Entries.get? seen specifier = none) →
        Leads (linkImports resolve (linkWithin resolve (depth + 1)) referrer specifiers seen) s
          (Entries.insertAll seen (forest.deps s.modules.length), forest.deps s.modules.length)
          (s.modules ++ forest.linked context s.modules.length) forest.requests

theorem Links.cons {rest : ImportForest} (others : Links start context resolve specifiers rest)
    {specifier : String} (nodup : (specifier :: specifiers).Nodup) {referrer : ModuleId}
    {r : ModuleRecord} {seen : Seen} {depth : Nat} {made linked : List ModuleRecord}
    {asked : List String} (same : s.contexts = start.contexts)
    (record : s.modules[referrer]? = some r) (here : r.context = context)
    (unseen : ∀ other ∈ specifier :: specifiers, Entries.get? seen other = none)
    (resolved : ∀ events, Leads (resolve specifier referrer) { s with events } s.modules.length
      (s.modules ++ made) asked)
    (link : ∀ (t : State) (seen : Seen), t.modules = s.modules ++ made →
      Leads (linkWithin resolve (depth + 1) s.modules.length seen) t seen (s.modules ++ linked) []) :
    Leads (linkImports resolve (linkWithin resolve (depth + 1)) referrer (specifier :: specifiers)
        seen) s
      (Entries.insertAll seen
        ((specifier, s.modules.length) :: rest.deps (s.modules.length + linked.length)),
        (specifier, s.modules.length) :: rest.deps (s.modules.length + linked.length))
      (s.modules ++ linked ++ rest.linked context (s.modules.length + linked.length))
      (asked ++ rest.requests) := by
  refine leads_linkImports_cons (unseen specifier List.mem_cons_self) resolved link ?_
  intro t same' modules
  have old : referrer < s.modules.length := (List.getElem?_eq_some_iff.1 record).1
  have record' : t.modules[referrer]? = some r := by
    rw [modules, List.getElem?_append_left old]
    exact record
  have later := others t referrer r _ depth (same'.trans same) record' here
    (unseen_insert s.modules.length nodup unseen)
  rwa [modules, List.length_append] at later

def Makes (start : State) (context : Option String) (a : Action ModuleId) (tree : ImportTree) :
    Prop :=
  ∀ s : State, s.contexts = start.contexts →
    Leads a s s.modules.length (s.modules ++ tree.records context s.modules.length) tree.requests

theorem Links.link (links : Links start context resolve script.specifiers forest)
    (same : s.contexts = start.contexts)
    (modules : s.modules = before ++ [{ body := .source script, context }]) :
    Leads (link resolve before.length) s ()
      (before ++ .ofLinked context script (forest.deps (before.length + 1)) ::
        forest.linked context (before.length + 1)) forest.requests := by
  let s' : State := { s with events := s.events ++ [.link before.length] }
  let t := s'.modified before.length ({ · with status := .linking })
  have begun : t.modules = _ := modified_append modules _
  have imports := links t before.length _ [] s.modules.length same (getElem?_of_append begun) rfl
    fun _ _ => rfl
  -- The record of the script is the last one, and its imports are numbered from the next number on.
  have size : t.modules.length = before.length + 1 := by
    rw [begun, List.length_append]
    rfl
  rw [size, begun, List.append_assoc] at imports
  have linked := leads_linkWithin (s := s') (getElem?_of_append modules) rfl imports
  rw [List.singleton_append, modify_append] at linked
  refine (linked.bind_quiet ?_).after (run_link resolve before.length s)
  intro t _ modules
  exact .still rfl modules

/-- The body of a linked script sees the exports of the forest, once its modules are evaluated. -/
theorem runModule_forest {r : ModuleRecord} (same : s.contexts = start.contexts)
    (modules : s.modules = before ++ r :: forest.records context (before.length + 1)) :
    runModule s (.ofLinked context script (forest.deps (before.length + 1))) =
      script.run (start.globals context) (Loader.gathered forest.exports) := by
  rw [List.append_cons] at modules
  have bound := bound_forest forest (by simp) modules
  simp only [runModule, ModuleRecord.ofLinked, bound.exportsOf]
  rw [globals_congr same]

theorem leads_evaluate_script (same : s.contexts = start.contexts)
    (modules : s.modules = before ++ .ofLinked context script (forest.deps (before.length + 1)) ::
      forest.linked context (before.length + 1))
    (ran : script.run (start.globals context) (Loader.gathered forest.exports) = .ok exports) :
    Leads (evaluate before.length) s ()
      (before ++ .ofScript context script (forest.deps (before.length + 1)) exports ::
        forest.records context (before.length + 1)) [] := by
  let s' : State := { s with events := s.events ++ [.evaluate before.length] }
  obtain ⟨depth, size⟩ : ∃ depth, s.modules.length = depth + 1 := by
    rw [modules, List.length_append]
    exact ⟨_, rfl⟩
  have begun : (s'.modified before.length fun r =>
      { r with status := .evaluating, body := r.body.begun }).modules = _ :=
    modified_append modules _
  rw [List.append_cons] at begun
  have imports := leads_evaluate_forest forest depth (by simp) begun
  rw [← List.append_cons, ← size] at imports
  have evaluated := leads_evaluateWithin (s := s') (getElem?_of_append modules) rfl imports
    fun t same' modules => (runModule_forest (same'.trans same) modules).trans ran
  rw [modify_append] at evaluated
  exact evaluated.after (run_evaluate before.length s)

end

end State

open State (Leads Links Makes)

namespace Loader

section

variable {l : Loader} {m : Memory} {start s : State} {context : Option String}

section

variable {runImport : Option String → Path → Action ModuleId} {specifier : String}
  {specifiers : List String} {rest : ImportForest} {referrer : ModuleId} {r : ModuleRecord}

theorem leads_package {p : Package} (answer : l.packages.answer specifier = .ok p)
    (context : Option String) (s : State) :
    Leads (do
      let package ← Package.require l.packages specifier
      State.syntheticModule package.exportNames package.setup context) s s.modules.length
      (s.modules ++ [.ofPending context .unlinked p]) [specifier] := by
  have asked : Leads (Package.require l.packages specifier) s p s.modules [specifier] := by
    refine ⟨s.events, ?_⟩
    rw [run_require, answer]
  apply asked.bind_quiet
  intro t _ modules
  rw [← modules]
  exact .quiet (run_syntheticModule _ _ context t)

theorem leads_resolve_package {p : Package} (conventional : l.config.isBytecode specifier = false)
    (answer : l.packages.answer specifier = .ok p) (record : s.modules[referrer]? = some r) :
    Leads (l.resolveImport runImport specifier referrer) s s.modules.length
      (s.modules ++ [.ofPending r.context .unlinked p]) [specifier] := by
  refine Leads.after (leads_package answer r.context s) ?_
  rw [run_resolveImport l runImport specifier record, conventional]
  rfl

theorem leads_resolve_blob {tree : ImportTree} (bytecode : l.config.isBytecode specifier = true)
    (makes : Makes start r.context (runImport r.context (l.config.blobPath specifier)) tree)
    (same : s.contexts = start.contexts) (record : s.modules[referrer]? = some r) :
    Leads (l.resolveImport runImport specifier referrer) s s.modules.length
      (s.modules ++ tree.records r.context s.modules.length) tree.requests := by
  refine Leads.after (makes s same) ?_
  rw [run_resolveImport l runImport specifier record, bytecode]
  rfl

theorem links_package {p : Package} (conventional : l.config.isBytecode specifier = false)
    (answer : l.packages.answer specifier = .ok p) (nodup : (specifier :: specifiers).Nodup)
    (others : Links start context (l.resolveImport runImport) specifiers rest) :
    Links start context (l.resolveImport runImport) (specifier :: specifiers)
      (.package specifier p rest) := by
  intro s referrer r seen depth same record here unseen
  subst here
  have linked := others.cons nodup same record rfl unseen
    (fun _ => leads_resolve_package conventional answer record)
    (fun _ seen modules => State.leads_link_package _ depth seen modules)
  rwa [List.append_assoc] at linked

theorem links_blob {tree : ImportTree} (bytecode : l.config.isBytecode specifier = true)
    (makes : Makes start context (runImport context (l.config.blobPath specifier)) tree)
    (nodup : (specifier :: specifiers).Nodup)
    (others : Links start context (l.resolveImport runImport) specifiers rest) :
    Links start context (l.resolveImport runImport) (specifier :: specifiers)
      (.blob specifier tree.script tree.exports tree.imports rest) := by
  intro s referrer r seen depth same record here unseen
  subst here
  -- The blob has been evaluated when it is found, so that linking it changes nothing.
  have resolved (events : List Event) :=
    leads_resolve_blob (s := { s with events }) bytecode makes same record
  have linked := others.cons nodup same record rfl unseen resolved
    (fun _ seen modules => State.leads_link_tree _ depth seen modules)
  have next : s.modules.length + (tree.records r.context s.modules.length).length =
      s.modules.length + 1 + tree.imports.size := by
    rw [ImportTree.length_records, ImportTree.size]
    omega
  rwa [next, List.append_assoc] at linked

end

/-- Whatever the blob at a path exports, the computation makes the modules of its import tree. -/
def Grows (l : Loader) (m : Memory) (start : State) (context : Option String)
    (load : Path → Action ModuleId) (pathExports : Path → Except LoadError Fields) : Prop :=
  ∀ p exports, pathExports p = .ok exports → ∃ tree,
    l.UnfoldsTo m (start.globals context) (.path p) tree ∧ tree.exports = exports ∧
      Makes start context (load p) tree

/-- By induction on the specifiers. -/
theorem forest_of_gather {pathExports : Path → Except LoadError Fields}
    (grows : l.Grows m start context (runImport context) pathExports) {specifiers : List String}
    (nodup : specifiers.Nodup) {found : Entries Fields}
    (gathers : gather (l.importExports pathExports) specifiers = .ok found) :
    ∃ forest, l.Unfolds m (start.globals context) specifiers forest ∧ forest.exports = found ∧
      Links start context (l.resolveImport runImport) specifiers forest := by
  induction specifiers generalizing found with
  | nil =>
    cases gathers
    refine ⟨.none, .none, rfl, ?_⟩
    intro s referrer r seen depth _ _ _ _
    exact .still rfl (List.append_nil _).symm
  | cons specifier specifiers ih =>
    rw [gather] at gathers
    obtain ⟨exports, here, gathers⟩ := bind_eq_ok.1 gathers
    obtain ⟨found', later, gathers⟩ := bind_eq_ok.1 gathers
    cases gathers
    obtain ⟨forest, unfolds, rfl, links⟩ := ih (List.nodup_cons.1 nodup).2 later
    rw [importExports] at here
    by_cases bytecode : l.config.isBytecode specifier = true
    · rw [if_pos bytecode] at here
      obtain ⟨tree, ⟨content, file, blob⟩, rfl, makes⟩ := grows _ _ here
      exact ⟨_, .blob bytecode file blob.decoded blob.unfolds blob.ran unfolds, rfl,
        links_blob bytecode makes nodup links⟩
    · rw [if_neg bytecode] at here
      obtain ⟨p, answer, rfl⟩ := map_eq_ok.1 here
      have conventional := Bool.eq_false_iff.2 bytecode
      exact ⟨_, .package conventional answer unfolds, rfl,
        links_package conventional answer nodup links⟩

theorem leads_openBlob {origin : Option Path} {blob : Bytes} {script : Script}
    (decoded : l.decodeBlob origin blob = .ok script) (context : Option String) (s : State) :
    Leads (l.openBlob origin context blob) s s.modules.length
      (s.modules ++ [{ body := .source script, context }]) [] := by
  obtain ⟨units, size, run⟩ := run_openBlob_of_ok decoded context s
  exact .quiet run

theorem makes_runBlob {origin : Option Path} {blob : Bytes} {tree : ImportTree}
    {resolve : State.Resolver} (unfolds : l.UnfoldsBlob m (start.globals context) origin blob tree)
    (links : Links start context resolve tree.script.specifiers tree.imports) :
    Makes start context (l.runBlob resolve origin context blob) tree := by
  intro s same
  rw [← List.nil_append tree.requests]
  apply (leads_openBlob unfolds.decoded context s).bind
  intro t same' modules
  apply (links.link (same'.trans same) modules).bind_quiet
  intro u same'' linked
  apply (State.leads_evaluate_script (same''.trans (same'.trans same)) linked unfolds.ran).bind
  intro v _ evaluated
  exact .still rfl evaluated

/-- A blob with exports has an import tree, and a run makes the modules of the tree if the loads of
its imports do. -/
theorem tree_of_interpretBlob {runImport : Option String → Path → Action ModuleId}
    {pathExports : Path → Except LoadError Fields}
    (grows : l.Grows m start context (runImport context) pathExports) {origin : Option Path}
    {blob : Bytes} {exports : Fields}
    (h : l.interpretBlob pathExports (start.globals context) origin blob = .ok exports) :
    ∃ tree, l.UnfoldsBlob m (start.globals context) origin blob tree ∧ tree.exports = exports ∧
      Makes start context (l.runBlob (l.resolveImport runImport) origin context blob) tree := by
  obtain ⟨script, found, decoded, gathers, ran⟩ := interpretBlob_eq_ok.1 h
  obtain ⟨forest, unfolds, rfl, links⟩ :=
    forest_of_gather grows (State.nodup_specifiers script) gathers
  have tree : l.UnfoldsBlob m (start.globals context) origin blob ⟨script, exports, forest⟩ :=
    ⟨decoded, unfolds, ran⟩
  exact ⟨_, tree, rfl, makes_runBlob tree links⟩

/-- By recursion over the chain, as the interpreter goes. -/
theorem grows_runNested (hm : l.storage = .memory m) (start : State) (context : Option String)
    (chain : List Path) :
    l.Grows m start context (l.runNested chain context)
      (l.interpretPath m (start.globals context) chain) := by
  intro p
  fun_induction interpretPath with
  | case1 chain p cycle =>
    intro exports h
    cases h
  | case2 chain p fresh missing =>
    intro exports h
    cases h
  | case3 chain p fresh blob file ih =>
    intro exports h
    obtain ⟨tree, unfolds, exported, makes⟩ := tree_of_interpretBlob ih h
    refine ⟨tree, ⟨blob, file, unfolds⟩, exported, ?_⟩
    rw [runNested_eq hm, loadPath, if_neg fresh, readBlob_of_found hm file]
    exact makes

theorem tree_of_interpret (hm : l.storage = .memory m) {start : State} {context : Option String}
    {origin : BlobOrigin} {exports : Fields}
    (h : l.interpret m (start.globals context) origin = .ok exports) :
    ∃ tree, l.UnfoldsTo m (start.globals context) origin tree ∧
      Makes start context (l.run context origin) tree := by
  cases origin with
  | bytes blob =>
    obtain ⟨tree, unfolds, _, makes⟩ :=
      tree_of_interpretBlob (grows_runNested hm start context []) h
    exact ⟨tree, unfolds, makes⟩
  | path p =>
    obtain ⟨tree, unfolds, _, makes⟩ := grows_runNested hm start context [] p exports h
    exact ⟨tree, unfolds, makes⟩

/-- A run that succeeds has created the modules of the import tree of its blob, which are evaluated,
made from their own blobs and packages, linked to one another and bound to the context of the run.
It has asked for the packages of the tree and changed nothing else. -/
theorem run_tree (hm : l.storage = .memory m) {context : Option String} {origin : BlobOrigin}
    {s : State} {id : ModuleId} (ok : ((l.run context origin).run s).1 = .ok id) :
    ∃ tree, l.UnfoldsTo m (s.globals context) origin tree ∧
      (∀ other, l.UnfoldsTo m (s.globals context) origin other → other = tree) ∧
      id = s.modules.length ∧
      let final := ((l.run context origin).run s).2
      let created := tree.records context s.modules.length
      final.modules = s.modules ++ created ∧ created.length = tree.size ∧
        (∀ r ∈ created, r.Settled context) ∧ final.requests = s.requests ++ tree.requests ∧
        final.contexts = s.contexts := by
  obtain ⟨exports, h⟩ := (run_ok_iff hm).1 ⟨id, ok⟩
  obtain ⟨tree, unfolds, makes⟩ := tree_of_interpret hm h
  obtain ⟨events, run⟩ := makes s rfl
  rw [run] at ok ⊢
  cases ok
  exact ⟨tree, unfolds, fun _ others => others.unique unfolds, rfl, rfl, ImportTree.length_records,
    fun _ => unfolds.settled, rfl, rfl⟩

end

def fetch : String :=
  "import a from \"a.jsc\"; import \"cfg\"; import b from \"cfg\"; export default a;"

def fetchScript : Script where
  imports := [
    { specifier := "a.jsc", bindings := [.defaultExport "a"] },
    { specifier := "cfg", bindings := [] },
    { specifier := "cfg", bindings := [.defaultExport "b"] }]
  body := [.exportDefault (.ident "a")]

theorem parse_fetch : Script.parse fetch = .ok fetchScript := by
  cbv

def fetching : Loader :=
  { plain 1 with packages := .ofTable [("cfg", .int 1)], storage := .memory stored }

def fetchTree : ImportTree where
  script := fetchScript
  exports := [("default", .int 42)]
  imports := .blob "a.jsc" answerScript [("default", .int 42)] .none
    (.package "cfg" (.ofValue (.int 1)) .none)

theorem decodeBlob_fetch {l : Loader} (hb : l.build = (plain 1).build) (hc : l.config = {})
    (f : Blob.Fingerprint) (origin : Option Path) :
    l.decodeBlob origin (Blob.encode fetchScript (Text.units16 fetch) f) = .ok fetchScript :=
  decodeBlob_plain hb hc parse_fetch (by decide) (by decide) f origin

theorem unfolds_fetchTree (globals : Scope) :
    fetching.UnfoldsBlob stored globals none
      (Blob.encode fetchScript (Text.units16 fetch) (plain 1).build.fingerprint) fetchTree := by
  have read := decodeBlob_answer (l := fetching) rfl rfl
  refine ⟨decodeBlob_fetch (l := fetching) rfl rfl _ none, ?_, rfl⟩
  refine .blob (by decide) get?_stored (read _ _) .none rfl ?_
  exact .package (by decide) rfl .none

theorem interpret_fetch {l : Loader} {m : Memory} {f f' : Blob.Fingerprint}
    (hb : l.build = (plain 1).build) (hc : l.config = {}) (hp : l.packages = fetching.packages)
    (file : m.get? ⟨"a.jsc"⟩ =
      some (Blob.encode answerScript (Text.units16 Sample.answer) f)) (globals : Scope) :
    l.interpret m globals (.bytes (Blob.encode fetchScript (Text.units16 fetch) f')) =
      .ok [("default", .int 42)] := by
  have gathers : gather (l.importExports (l.interpretPath m globals [])) fetchScript.specifiers =
      .ok fetchTree.imports.exports := by
    have specifiers : fetchScript.specifiers = ["a.jsc", "cfg"] := by decide
    have bytecode : ({} : Config).isBytecode "a.jsc" = true := by decide
    have path : ({} : Config).blobPath "a.jsc" = ⟨"a.jsc"⟩ := by decide
    rw [specifiers, gather, importExports, hc, if_pos bytecode, path,
      interpretPath_answer hb hc rfl file, gather, importExports, hc, hp]
    rfl
  exact interpretBlob_eq_ok.2 ⟨fetchScript, _, decodeBlob_fetch hb hc f' none, gathers, rfl⟩

/-- The script, the blob and the package become modules 0, 1 and 2. -/
theorem run_tree_fetch :
    ∃ blob, fetching.build.compile fetch = .ok blob ∧ fetching.storage = .memory stored ∧
      let outcome := (fetching.run none (.bytes blob)).run {}
      outcome.1 = .ok 0 ∧ outcome.2.modules = fetchTree.records none 0 ∧
        outcome.2.modules.map (·.deps) = [[("a.jsc", 1), ("cfg", 2)], [], []] ∧
        outcome.2.requests = ["cfg"] := by
  refine ⟨_, Build.compile_eq parse_fetch _, rfl, ?_⟩
  obtain ⟨id, ok⟩ := (run_ok_iff (l := fetching) (m := stored) rfl (s := {})).2
    ⟨_, interpret_fetch (l := fetching) rfl rfl rfl get?_stored (State.globals {} none)⟩
  obtain ⟨tree, _, unique, rfl, modules, _, _, requests, _⟩ :=
    run_tree (l := fetching) (m := stored) rfl ok
  cases unique fetchTree (unfolds_fetchTree _)
  refine ⟨ok, modules, ?_, requests⟩
  rw [show fetching.build = (plain 1).build from rfl, modules]
  rfl

end Loader

end CodeCache
