import CodeCache.Proofs.Interpreter

/-! # Linking and evaluating one script

A script is made a module, linked and evaluated while the modules behind its imports are found one
by one. If finding an import makes a module that offers certain exports and leaves what exists
alone, then the module of the script ends up with the exports that its script has over those
exports, or fails with the first error. -/

namespace CodeCache

namespace State

variable {n m id : Nat} {s t u : State}

structure Keeps (n : Nat) (s t : State) : Prop where
  size : s.modules.length ≤ t.modules.length
  old : ∀ i, i < n → t.modules[i]? = s.modules[i]?
  contexts : t.contexts = s.contexts

theorem Keeps.refl (n : Nat) (s : State) : Keeps n s s := by
  constructor
  · exact Nat.le_refl _
  · intro i _
    rfl
  · rfl

theorem Keeps.trans (h : Keeps n s t) (k : Keeps n t u) : Keeps n s u := by
  constructor
  · exact Nat.le_trans h.size k.size
  · intro i hi
    exact (k.old i hi).trans (h.old i hi)
  · exact k.contexts.trans h.contexts

theorem Keeps.mono (h : Keeps n s t) (hm : m ≤ n) : Keeps m s t := by
  constructor
  · exact h.size
  · intro i hi
    exact h.old i (Nat.lt_of_lt_of_le hi hm)
  · exact h.contexts

theorem Keeps.found {r : ModuleRecord} (h : Keeps n s t) (hi : id < n)
    (found : s.modules[id]? = some r) : t.modules[id]? = some r := (h.old id hi).trans found

theorem keeps_events (n : Nat) (s : State) (events : List Event) : Keeps n s { s with events } := by
  constructor
  · exact Nat.le_refl _
  · intro i _
    rfl
  · rfl

theorem globals_congr (same : t.contexts = s.contexts) (context : Option String) :
    t.globals context = s.globals context := by
  unfold State.globals
  rw [same]

theorem Keeps.globals (h : Keeps n s t) (context : Option String) :
    t.globals context = s.globals context := globals_congr h.contexts context

def modified (s : State) (id : ModuleId) (f : ModuleRecord → ModuleRecord) : State :=
  { s with modules := s.modules.modify id f }

theorem run_update_eq (id : ModuleId) (f : ModuleRecord → ModuleRecord) (s : State) :
    (update id f).run s = (.ok (), s.modified id f) := rfl

structure OnlyAt (id : ModuleId) (s t : State) : Prop where
  size : t.modules.length = s.modules.length
  other : ∀ i, i ≠ id → t.modules[i]? = s.modules[i]?
  contexts : t.contexts = s.contexts

theorem OnlyAt.refl (id : ModuleId) (s : State) : OnlyAt id s s := by
  constructor
  · rfl
  · intro i _
    rfl
  · rfl

theorem OnlyAt.trans (h : OnlyAt id s t) (k : OnlyAt id t u) : OnlyAt id s u := by
  constructor
  · exact k.size.trans h.size
  · intro i hi
    exact (k.other i hi).trans (h.other i hi)
  · exact k.contexts.trans h.contexts

theorem OnlyAt.keeps (h : OnlyAt id s t) (hn : n ≤ id) : Keeps n s t := by
  constructor
  · exact Nat.le_of_eq h.size.symm
  · intro i hi
    exact h.other i (Nat.ne_of_lt (Nat.lt_of_lt_of_le hi hn))
  · exact h.contexts

theorem onlyAt_modified (s : State) (id : ModuleId) (f : ModuleRecord → ModuleRecord) :
    OnlyAt id s (s.modified id f) := by
  constructor
  · exact List.length_modify f s.modules id
  · intro i hi
    exact List.getElem?_modify_ne f s.modules (Ne.symm hi)
  · rfl

theorem getElem?_modified {r : ModuleRecord} (found : s.modules[id]? = some r)
    (f : ModuleRecord → ModuleRecord) : (s.modified id f).modules[id]? = some (f r) := by
  simp [modified, found]

theorem run_moduleAt_of {r : ModuleRecord} (found : s.modules[id]? = some r) :
    (moduleAt id).run s = (.ok r, s) := by
  rw [run_moduleAt, found]

end State

namespace ModuleRecord

def Exports (r : ModuleRecord) (exports : Fields) : Prop :=
  r.status = .evaluated ∧ r.exports = exports

/-- The module has these exports, or it is a synthetic module in the given status and will have them
once it is evaluated. -/
def Offers (pending : Status) (r : ModuleRecord) (exports : Fields) : Prop :=
  r.Exports exports ∨ r.status = pending ∧ r.deps = [] ∧
    ∃ names setup, r.body = .synthetic names setup ∧ Setup.run names setup = .ok exports

end ModuleRecord

namespace State

theorem run_namespaceOf_of_exports {s : State} {id : ModuleId} {r : ModuleRecord} {exports : Fields}
    (found : s.modules[id]? = some r) (exported : r.Exports exports) :
    (namespaceOf id).run s = (.ok exports, s) := by
  rw [namespaceOf, Action.run_bind_ok (run_moduleAt_of found), if_pos exported.1, exported.2]
  rfl

theorem namespaceOf_eq_ok {s : State} {id : ModuleId} {exports : Fields} :
    ((namespaceOf id).run s).1 = .ok exports ↔
      ∃ r : ModuleRecord, s.modules[id]? = some r ∧ r.Exports exports := by
  rw [run_namespaceOf]
  cases found : s.modules[id]? with
  | none => simp
  | some r => by_cases evaluated : r.status = .evaluated <;> simp [evaluated, ModuleRecord.Exports]

section

variable {resolve : Resolver} {depth : Nat} {seen seen' : Seen} {deps : List (String × ModuleId)}
  {r : ModuleRecord} {s t : State} {id : ModuleId} {e : LoadError}

theorem run_linkWithin_of_ok (found : s.modules[id]? = some r) (status : r.status = .unlinked)
    (imports : (linkImports resolve (linkWithin resolve depth) id r.body.specifiers seen).run
      (s.modified id ({ · with status := .linking })) = (.ok (seen', deps), t)) :
    (linkWithin resolve (depth + 1) id seen).run s =
      (.ok seen', t.modified id ({ · with deps, status := .linked })) := by
  rw [linkWithin, Action.run_bind_ok (run_moduleAt_of found)]
  simp only [status]
  rw [setStatus, Action.run_bind_ok (run_update_eq id _ s), Action.run_tryCatch,
    Action.run_bind_ok imports]
  rfl

theorem run_linkWithin_of_error (found : s.modules[id]? = some r) (status : r.status = .unlinked)
    (imports : (linkImports resolve (linkWithin resolve depth) id r.body.specifiers seen).run
      (s.modified id ({ · with status := .linking })) = (.error e, t)) :
    (linkWithin resolve (depth + 1) id seen).run s =
      (.error e, t.modified id ({ · with status := .unlinked })) := by
  rw [linkWithin, Action.run_bind_ok (run_moduleAt_of found)]
  simp only [status]
  rw [setStatus, Action.run_bind_ok (run_update_eq id _ s), Action.run_tryCatch,
    Action.run_bind_error imports]
  rfl

theorem run_linkWithin_of_linked (resolve : Resolver) (depth : Nat) (seen : Seen)
    (found : s.modules[id]? = some r) (done : r.status = .linked ∨ r.status = .evaluated) :
    (linkWithin resolve (depth + 1) id seen).run s = (.ok seen, s) := by
  rw [linkWithin, Action.run_bind_ok (run_moduleAt_of found)]
  rcases done with status | status
  all_goals
    simp only [status]
    rfl

theorem run_linkWithin_of_alone (resolve : Resolver) (depth : Nat) (seen : Seen)
    (found : s.modules[id]? = some r) (status : r.status = .unlinked)
    (alone : r.body.specifiers = []) :
    ∃ t, (linkWithin resolve (depth + 1) id seen).run s = (.ok seen, t) ∧ OnlyAt id s t ∧
      t.modules[id]? = some { r with deps := [], status := .linked } := by
  have imports : (linkImports resolve (linkWithin resolve depth) id r.body.specifiers seen).run
      (s.modified id ({ · with status := .linking })) =
        (.ok (seen, []), s.modified id ({ · with status := .linking })) := by
    rw [alone]
    rfl
  exact ⟨_, run_linkWithin_of_ok found status imports,
    (onlyAt_modified s id _).trans (onlyAt_modified _ id _),
    getElem?_modified (getElem?_modified found _) _⟩

/-- Linking what an import was resolved to links nothing else. -/
theorem run_linkWithin_of_offers (resolve : Resolver) (depth : Nat) (seen : Seen)
    {exports : Fields} (found : s.modules[id]? = some r)
    (offers : r.Offers .unlinked exports) :
    ∃ t r', (linkWithin resolve (depth + 1) id seen).run s = (.ok seen, t) ∧ OnlyAt id s t ∧
      t.modules[id]? = some r' ∧ r'.Offers .linked exports := by
  rcases offers with evaluated | ⟨status, deps, names, setup, body, ran⟩
  · exact ⟨s, r, run_linkWithin_of_linked resolve depth seen found (.inr evaluated.1),
      .refl id s, found, .inl evaluated⟩
  · have nothing : r.body.specifiers = [] := by rw [body]; rfl
    obtain ⟨t, run, only, found'⟩ :=
      run_linkWithin_of_alone resolve depth seen found status nothing
    exact ⟨t, _, run, only, found', .inr ⟨rfl, rfl, names, setup, body, ran⟩⟩

end

/-- The modules that imports were bound to, later ones than the first `n`, stand in a relation to
the exports gathered for the same specifiers. -/
inductive Bound (P : ModuleRecord → Fields → Prop) (n : Nat) (s : State) :
    List (String × ModuleId) → Entries Fields → Prop where
  | nil : Bound P n s [] []
  | cons {specifier : String} {id : ModuleId} {r : ModuleRecord} {exports : Fields}
      {deps : List (String × ModuleId)} {found : Entries Fields} (later : n ≤ id)
      (record : s.modules[id]? = some r) (holds : P r exports) (rest : Bound P n s deps found) :
      Bound P n s ((specifier, id) :: deps) ((specifier, exports) :: found)

section

variable {P : ModuleRecord → Fields → Prop} {n m : Nat} {s t : State}
  {deps : List (String × ModuleId)} {found : Entries Fields}

theorem Bound.mono (h : Bound P n s deps found) (hm : m ≤ n) : Bound P m s deps found := by
  induction h with
  | nil => exact .nil
  | cons later record holds _ ih => exact .cons (Nat.le_trans hm later) record holds ih

/-- What holds of the modules of a state and is passed on to those of another. -/
theorem Bound.pass {Q : ModuleRecord → Fields → Prop} (h : Bound P n s deps found)
    (pass : ∀ (i : ModuleId) (r : ModuleRecord) (exports : Fields), n ≤ i →
      s.modules[i]? = some r → P r exports →
        ∃ r' : ModuleRecord, t.modules[i]? = some r' ∧ Q r' exports) : Bound Q n t deps found := by
  induction h with
  | nil => exact .nil
  | cons later record holds _ ih =>
    obtain ⟨r', record', holds'⟩ := pass _ _ _ later record holds
    exact .cons later record' holds' ih

theorem Bound.keeps (h : Bound P n s deps found) (keeps : Keeps s.modules.length s t) :
    Bound P n t deps found := by
  apply h.pass
  intro i r exports _ record holds
  have old : i < s.modules.length := (List.getElem?_eq_some_iff.1 record).1
  exact ⟨r, keeps.found old record, holds⟩

theorem Bound.onlyAt {id : ModuleId} (h : Bound P (id + 1) s deps found) (only : OnlyAt id s t) :
    Bound P (id + 1) t deps found := by
  apply h.pass
  intro i r exports later record holds
  have other : i ≠ id := Nat.ne_of_gt later
  exact ⟨r, (only.other i other).trans record, holds⟩

end

/-- The computation fails as the outcome says, or returns a new module that stands in the relation
to the exports of the outcome. What exists stays as it is. -/
inductive Yields (P : ModuleRecord → Fields → Prop) (a : Action ModuleId) (s : State) :
    Except LoadError Fields → Prop where
  | fails {e : LoadError} {t : State} (keeps : Keeps s.modules.length s t)
      (run : a.run s = (.error e, t)) : Yields P a s (.error e)
  | makes {exports : Fields} {id : ModuleId} {r : ModuleRecord} {t : State}
      (keeps : Keeps s.modules.length s t) (run : a.run s = (.ok id, t))
      (later : s.modules.length ≤ id) (record : t.modules[id]? = some r) (holds : P r exports) :
      Yields P a s (.ok exports)

theorem Yields.mono {P Q : ModuleRecord → Fields → Prop} {a b : Action ModuleId} {s : State}
    {outcome : Except LoadError Fields} (h : Yields P a s outcome) (run : b.run s = a.run s)
    (imp : ∀ r exports, P r exports → Q r exports) : Yields Q b s outcome := by
  cases h with
  | fails keeps failed => exact .fails keeps (run.trans failed)
  | makes keeps made later record holds =>
    exact .makes keeps (run.trans made) later record (imp _ _ holds)

/-- Every specifier is resolved to a new module that offers the given exports, for a referrer with
the given context. -/
def Resolves (resolve : Resolver) (contexts : Entries Fields) (context : Option String)
    (exports : String → Except LoadError Fields) : Prop :=
  ∀ (s : State) (referrer : ModuleId) (r : ModuleRecord), s.contexts = contexts →
    s.modules[referrer]? = some r → r.context = context → ∀ specifier,
      Yields (ModuleRecord.Offers .unlinked) (resolve specifier referrer) s (exports specifier)

inductive Gathers (a : Action (Seen × List (String × ModuleId))) (s : State) :
    Except LoadError (Entries Fields) → Prop where
  | fails {e : LoadError} {t : State} (keeps : Keeps s.modules.length s t)
      (run : a.run s = (.error e, t)) : Gathers a s (.error e)
  | finds {found : Entries Fields} {seen : Seen} {deps : List (String × ModuleId)} {t : State}
      (keeps : Keeps s.modules.length s t) (run : a.run s = (.ok (seen, deps), t))
      (bound : Bound (ModuleRecord.Offers .linked) s.modules.length t deps found) :
      Gathers a s (.ok found)

theorem run_resolveOnce_of_unseen {seen : Seen} {specifier : String}
    (unseen : Entries.get? seen specifier = none) (resolve : Resolver) (referrer : ModuleId)
    (s : State) :
    (resolveOnce resolve referrer seen specifier).run s =
      (resolve specifier referrer).run
        { s with events := s.events ++ [.resolve specifier referrer] } := by
  rw [resolveOnce, unseen]
  exact Action.run_bind_ok (run_record _ s)

theorem Resolves.once {resolve : Resolver} {contexts : Entries Fields} {context : Option String}
    {exports : String → Except LoadError Fields}
    (resolves : Resolves resolve contexts context exports) {s : State} {referrer : ModuleId}
    {r : ModuleRecord} (same : s.contexts = contexts)
    (record : s.modules[referrer]? = some r) (here : r.context = context) {seen : Seen}
    {specifier : String} (unseen : Entries.get? seen specifier = none) :
    Yields (ModuleRecord.Offers .unlinked) (resolveOnce resolve referrer seen specifier) s
      (exports specifier) := by
  have once := run_resolveOnce_of_unseen unseen resolve referrer s
  have resolved := resolves { s with events := s.events ++ [.resolve specifier referrer] } referrer
    r same record here specifier
  cases h : exports specifier with
  | error e =>
    rw [h] at resolved
    cases resolved with
    | fails keeps run => exact .fails ⟨keeps.size, keeps.old, keeps.contexts⟩ (once.trans run)
  | ok found =>
    rw [h] at resolved
    cases resolved with
    | makes keeps run later record holds =>
      exact .makes ⟨keeps.size, keeps.old, keeps.contexts⟩ (once.trans run) later record holds

/-- The first import was found and linked: the modules that were found stay as they are while the
others are found. -/
theorem Gathers.cons {resolve : Resolver} {linkDep : ModuleId → Seen → Action Seen}
    {referrer id : ModuleId} {specifier : String} {rest : List String} {seen seen' : Seen}
    {s t t' : State} {r : ModuleRecord} {offered : Fields}
    {outcome : Except LoadError (Entries Fields)}
    (run : (resolveOnce resolve referrer seen specifier).run s = (.ok id, t))
    (linked : (linkDep id (seen.insert specifier id)).run t = (.ok seen', t'))
    (stays : Keeps s.modules.length s t') (later : s.modules.length ≤ id)
    (record : t'.modules[id]? = some r) (offers : r.Offers .linked offered)
    (others : Gathers (State.linkImports resolve linkDep referrer rest seen') t' outcome) :
    Gathers (State.linkImports resolve linkDep referrer (specifier :: rest) seen) s
      (outcome.map ((specifier, offered) :: ·)) := by
  cases others with
  | fails keeps failed =>
    refine .fails (stays.trans (keeps.mono stays.size)) ?_
    rw [State.linkImports, Action.run_bind_ok run, Action.run_bind_ok linked,
      Action.run_bind_error failed]
  | @finds found seen'' deps u keeps ran bound =>
    have old : id < t'.modules.length := (List.getElem?_eq_some_iff.1 record).1
    have whole : (State.linkImports resolve linkDep referrer (specifier :: rest) seen).run s =
        (.ok (seen'', (specifier, id) :: deps), u) := by
      rw [State.linkImports, Action.run_bind_ok run, Action.run_bind_ok linked,
        Action.run_bind_ok ran]
      rfl
    exact .finds (stays.trans (keeps.mono stays.size)) whole
      (.cons later (keeps.found old record) offers (bound.mono stays.size))

theorem unseen_insert {specifier : String} {rest : List String} {seen : Seen} (id : ModuleId)
    (nodup : (specifier :: rest).Nodup)
    (unseen : ∀ other ∈ specifier :: rest, Entries.get? seen other = none) :
    ∀ other ∈ rest, Entries.get? (seen.insert specifier id) other = none := by
  intro other ho
  have different : specifier ≠ other := by
    rintro rfl
    exact (List.nodup_cons.1 nodup).1 ho
  rw [Entries.get?_insert, if_neg different]
  exact unseen other (List.mem_cons_of_mem _ ho)

/-- By induction on the specifiers, none of which was seen before. -/
theorem Resolves.linkImports {resolve : Resolver} {contexts : Entries Fields}
    {context : Option String} {exports : String → Except LoadError Fields}
    (resolves : Resolves resolve contexts context exports) {depth : Nat} {referrer : ModuleId}
    {r : ModuleRecord} (here : r.context = context) {specifiers : List String}
    (nodup : specifiers.Nodup) {seen : Seen}
    (unseen : ∀ specifier ∈ specifiers, Entries.get? seen specifier = none) {s : State}
    (same : s.contexts = contexts) (record : s.modules[referrer]? = some r) :
    Gathers (linkImports resolve (linkWithin resolve (depth + 1)) referrer specifiers seen) s
      (Loader.gather exports specifiers) := by
  induction specifiers generalizing seen s with
  | nil => exact .finds (.refl _ s) rfl .nil
  | cons specifier rest ih =>
    have first := resolves.once same record here (unseen specifier List.mem_cons_self)
    rw [Loader.gather]
    cases h : exports specifier with
    | error e =>
      rw [h] at first
      cases first with
      | fails keeps run => exact .fails keeps (Action.run_bind_error run)
    | ok offered =>
      rw [h] at first
      cases first with
      | @makes _ id _ t keeps run later made holds =>
        obtain ⟨t', r', linked, only, bound, offers⟩ :=
          run_linkWithin_of_offers resolve depth (seen.insert specifier id) made holds
        have stays : Keeps s.modules.length s t' := keeps.trans (only.keeps later)
        have old : referrer < s.modules.length := (List.getElem?_eq_some_iff.1 record).1
        have others := ih (List.nodup_cons.1 nodup).2 (unseen_insert id nodup unseen)
          (stays.contexts.trans same) (stays.found old record)
        exact .cons run linked stays later bound offers others

/-- The specifiers of a script are those of its imports, each where it appears first. -/
theorem specifiers_eq (script : Script) :
    script.specifiers = (script.imports.map (·.specifier)).eraseDups := by
  have step (imports : List Import) (before : List String) :
      imports.foldl (fun seen i => if i.specifier ∈ seen then seen else seen ++ [i.specifier])
        before.eraseDups = (before ++ imports.map (·.specifier)).eraseDups := by
    induction imports generalizing before with
    | nil => simp
    | cons i imports ih =>
      have next := ih (before ++ [i.specifier])
      rw [Entries.eraseDups_concat, List.append_assoc, List.singleton_append] at next
      rw [List.foldl_cons, List.map_cons]
      simpa only [List.mem_eraseDups] using next
  exact step script.imports []

theorem nodup_specifiers (script : Script) : script.specifiers.Nodup := by
  have step (imports : List Import) (seen : List String) (nodup : seen.Nodup) :
      (imports.foldl (fun seen i => if i.specifier ∈ seen then seen else seen ++ [i.specifier])
        seen).Nodup := by
    induction imports generalizing seen with
    | nil => exact nodup
    | cons i imports ih =>
      rw [List.foldl_cons]
      by_cases known : i.specifier ∈ seen
      · rw [if_pos known]
        exact ih seen nodup
      · rw [if_neg known]
        exact ih _ (Entries.nodup_add nodup known)
  exact step script.imports [] List.nodup_nil

section

variable {resolve : Resolver} {contexts : Entries Fields} {context : Option String}
  {exports : String → Except LoadError Fields} {s : State} {id : ModuleId} {r : ModuleRecord}
  {script : Script}

theorem Resolves.gathers (resolves : Resolves resolve contexts context exports)
    (same : s.contexts = contexts) (record : s.modules[id]? = some r)
    (body : r.body = .source script) (here : r.context = context) (depth : Nat) :
    Gathers (State.linkImports resolve (linkWithin resolve (depth + 1)) id r.body.specifiers [])
      (s.modified id ({ · with status := .linking }))
      (Loader.gather exports script.specifiers) := by
  rw [body]
  exact resolves.linkImports (r := { r with status := .linking }) here (nodup_specifiers script)
    (fun _ _ => rfl) same (getElem?_modified record _)

theorem run_link (resolve : Resolver) (id : ModuleId) (s : State) :
    (link resolve id).run s =
      (linkWithin resolve (s.modules.length + 2) id [] >>= fun _ => pure ()).run
        { s with events := s.events ++ [.link id] } := rfl

/-- While the imports of a module are found, and its own record is changed before and after that,
the modules before it stay as they are. -/
theorem keeps_around {t : State} {events : List Event} {f g : ModuleRecord → ModuleRecord}
    (found : s.modules[id]? = some r)
    (keeps : Keeps (({ s with events } : State).modified id f).modules.length
      (({ s with events } : State).modified id f) t) : Keeps id s (t.modified id g) := by
  have before : Keeps id s (({ s with events } : State).modified id f) :=
    (keeps_events id s events).trans ((onlyAt_modified _ id f).keeps (Nat.le_refl id))
  have old : id ≤ (({ s with events } : State).modified id f).modules.length := by
    rw [(onlyAt_modified _ id f).size]
    exact Nat.le_of_lt (List.getElem?_eq_some_iff.1 found).1
  exact before.trans ((keeps.mono old).trans ((onlyAt_modified t id g).keeps (Nat.le_refl id)))

theorem Resolves.link_of_error (resolves : Resolves resolve contexts context exports)
    (same : s.contexts = contexts) (record : s.modules[id]? = some r)
    (status : r.status = .unlinked) (body : r.body = .source script) (here : r.context = context)
    {e : LoadError} (failed : Loader.gather exports script.specifiers = .error e) :
    ∃ t, (link resolve id).run s = (.error e, t) ∧ Keeps id s t := by
  have gathers := resolves.gathers (s := { s with events := s.events ++ [.link id] }) same record
    body here s.modules.length
  rw [failed] at gathers
  cases gathers with
  | fails keeps run =>
    have linked := Action.run_bind_error (f := fun _ => (pure () : Action Unit))
      (run_linkWithin_of_error (s := { s with events := s.events ++ [.link id] }) record status run)
    exact ⟨_, (run_link resolve id s).trans linked, keeps_around record keeps⟩

theorem Resolves.link_of_ok (resolves : Resolves resolve contexts context exports)
    (same : s.contexts = contexts) (record : s.modules[id]? = some r)
    (status : r.status = .unlinked) (body : r.body = .source script) (here : r.context = context)
    {found : Entries Fields} (gathered : Loader.gather exports script.specifiers = .ok found) :
    ∃ t r', (link resolve id).run s = (.ok (), t) ∧ Keeps id s t ∧ t.modules[id]? = some r' ∧
      r'.status = .linked ∧ r'.body = .source script ∧ r'.context = context ∧
      Bound (ModuleRecord.Offers .linked) (id + 1) t r'.deps found := by
  have gathers := resolves.gathers (s := { s with events := s.events ++ [.link id] }) same record
    body here s.modules.length
  rw [gathered] at gathers
  cases gathers with
  | @finds _ seen deps t keeps run bound =>
    have linked := Action.run_bind_ok (f := fun _ => (pure () : Action Unit))
      (run_linkWithin_of_ok (s := { s with events := s.events ++ [.link id] }) record status run)
    have old := (List.getElem?_eq_some_iff.1 record).1
    have size := (onlyAt_modified { s with events := s.events ++ [.link id] } id
      ({ · with status := .linking })).size
    have own := keeps.found (Nat.lt_of_lt_of_eq old size.symm) (getElem?_modified record _)
    refine ⟨_, _, (run_link resolve id s).trans linked, keeps_around record keeps,
      getElem?_modified own _, rfl, body, here, ?_⟩
    exact (bound.mono (Nat.lt_of_lt_of_eq old size.symm)).onlyAt (onlyAt_modified t id _)

end

section

variable {depth : Nat} {s t : State} {id : ModuleId} {r : ModuleRecord} {exports : Fields}
  {e : LoadError}

theorem run_evaluateWithin_of_ok (found : s.modules[id]? = some r) (status : r.status = .linked)
    (deps : (r.deps.forM fun dep => evaluateWithin depth dep.2).run
      (s.modified id fun r => { r with status := .evaluating, body := r.body.begun }) = (.ok (), t))
    (ran : runModule t r = .ok exports) :
    (evaluateWithin (depth + 1) id).run s =
      (.ok (), t.modified id ({ · with exports, status := .evaluated })) := by
  rw [evaluateWithin, Action.run_bind_ok (run_moduleAt_of found)]
  simp only [status]
  rw [Action.run_bind_ok (run_update_eq id _ s), Action.run_tryCatch, Action.run_bind_ok deps,
    Action.run_bind_ok (Action.run_get t), ran]
  rfl

theorem run_evaluateWithin_of_error (found : s.modules[id]? = some r) (status : r.status = .linked)
    (deps : (r.deps.forM fun dep => evaluateWithin depth dep.2).run
      (s.modified id fun r => { r with status := .evaluating, body := r.body.begun }) = (.ok (), t))
    (ran : runModule t r = .error e) :
    (evaluateWithin (depth + 1) id).run s =
      (.error e, t.modified id ({ · with status := .errored e.message })) := by
  rw [evaluateWithin, Action.run_bind_ok (run_moduleAt_of found)]
  simp only [status]
  rw [Action.run_bind_ok (run_update_eq id _ s), Action.run_tryCatch, Action.run_bind_ok deps,
    Action.run_bind_ok (Action.run_get t), ran]
  rfl

structure Honours (s t : State) : Prop where
  evaluated : ∀ (i : ModuleId) (r : ModuleRecord), s.modules[i]? = some r → r.status = .evaluated →
    t.modules[i]? = some r
  offers : ∀ (i : ModuleId) (r : ModuleRecord) (exports : Fields), s.modules[i]? = some r →
    r.Offers .linked exports → ∃ r' : ModuleRecord, t.modules[i]? = some r' ∧
      r'.Offers .linked exports

theorem Honours.refl (s : State) : Honours s s := by
  constructor
  · intro i r found _
    exact found
  · intro i r exports found offers
    exact ⟨r, found, offers⟩

theorem Honours.trans {s t u : State} (h : Honours s t) (k : Honours t u) : Honours s u := by
  constructor
  · intro i r found evaluated
    exact k.evaluated i r (h.evaluated i r found evaluated) evaluated
  · intro i r exports found offers
    obtain ⟨r', found', offers'⟩ := h.offers i r exports found offers
    exact k.offers i r' exports found' offers'

/-- Evaluating a synthetic module in place is honoured. -/
theorem OnlyAt.honours {r' : ModuleRecord} {names : List String} {setup : Option Setup}
    (only : OnlyAt id s t) (found : s.modules[id]? = some r) (status : r.status = .linked)
    (body : r.body = .synthetic names setup) (ran : Setup.run names setup = .ok exports)
    (own : t.modules[id]? = some r') (exported : r'.Exports exports) : Honours s t := by
  constructor
  · intro i q foundAt evaluated
    have other : i ≠ id := by
      rintro rfl
      cases found.symm.trans foundAt
      cases status.symm.trans evaluated
    exact (only.other i other).trans foundAt
  · intro i q others foundAt offered
    by_cases here : i = id
    · subst here
      cases found.symm.trans foundAt
      refine ⟨r', own, .inl ⟨exported.1, ?_⟩⟩
      rw [exported.2]
      rcases offered with evaluated | ⟨_, _, names', setup', body', ran'⟩
      · cases status.symm.trans evaluated.1
      · cases body.symm.trans body'
        cases ran.symm.trans ran'
        rfl
    · exact ⟨q, (only.other i here).trans foundAt, offered⟩

theorem run_evaluateWithin_of_evaluated (depth : Nat) (found : s.modules[id]? = some r)
    (status : r.status = .evaluated) : (evaluateWithin (depth + 1) id).run s = (.ok (), s) := by
  rw [evaluateWithin, Action.run_bind_ok (run_moduleAt_of found)]
  simp only [status]
  rfl

theorem run_evaluateWithin_of_offers (depth : Nat) (found : s.modules[id]? = some r)
    (offers : r.Offers .linked exports) :
    ∃ t r', (evaluateWithin (depth + 1) id).run s = (.ok (), t) ∧ OnlyAt id s t ∧ Honours s t ∧
      t.modules[id]? = some r' ∧ r'.Exports exports := by
  rcases offers with evaluated | ⟨status, deps, names, setup, body, ran⟩
  · exact ⟨s, r, run_evaluateWithin_of_evaluated depth found evaluated.1, .refl id s, .refl s,
      found, evaluated⟩
  · have nothing : (r.deps.forM fun dep => evaluateWithin depth dep.2).run
        (s.modified id fun r => { r with status := .evaluating, body := r.body.begun }) =
          (.ok (),
            s.modified id fun r => { r with status := .evaluating, body := r.body.begun }) := by
      rw [deps]
      rfl
    have ran' : runModule (s.modified id fun r =>
        { r with status := .evaluating, body := r.body.begun }) r = .ok exports := by
      rw [runModule, body]
      exact ran
    have only := (onlyAt_modified s id fun r =>
      { r with status := .evaluating, body := r.body.begun }).trans
        (onlyAt_modified _ id ({ · with exports, status := .evaluated }))
    have own := getElem?_modified (getElem?_modified found fun r =>
      { r with status := .evaluating, body := r.body.begun })
        ({ · with exports, status := .evaluated })
    have honours : Honours s _ := only.honours found status body ran own ⟨rfl, rfl⟩
    exact ⟨_, _, run_evaluateWithin_of_ok found status nothing ran', only, honours, own, rfl, rfl⟩

end

section

variable {n : Nat} {s : State} {deps : List (String × ModuleId)} {found : Entries Fields}

/-- By induction on the dependencies: evaluating one of them honours what the others offer. -/
theorem Bound.evaluate (bound : Bound (ModuleRecord.Offers .linked) n s deps found) (depth : Nat) :
    ∃ t, (deps.forM fun dep => evaluateWithin (depth + 1) dep.2).run s = (.ok (), t) ∧ Keeps n s t ∧
      Honours s t ∧ Bound ModuleRecord.Exports n t deps found := by
  induction deps generalizing s found with
  | nil =>
    cases bound with
    | nil => exact ⟨s, rfl, .refl n s, .refl s, .nil⟩
  | cons dep deps ih =>
    cases bound with
    | @cons specifier id r exports _ found later record offers rest =>
      obtain ⟨t, r', run, only, honours, own, evaluated⟩ :=
        run_evaluateWithin_of_offers depth record offers
      have others : Bound (ModuleRecord.Offers .linked) n t deps found := by
        apply rest.pass
        intro i q exports _ foundAt offered
        exact honours.offers i q exports foundAt offered
      obtain ⟨u, runs, keeps, honours', bound⟩ := ih others
      have own' := honours'.evaluated id r' own evaluated.1
      exact ⟨u, (Action.run_bind_ok run).trans runs, (only.keeps later).trans keeps,
        honours.trans honours', .cons later own' evaluated bound⟩

theorem Bound.exportsOf (bound : Bound ModuleRecord.Exports n s deps found) :
    s.exportsOf deps = Loader.gathered found := by
  funext name
  induction bound with
  | nil => rfl
  | @cons specifier id r exports deps found _ record evaluated _ ih =>
    by_cases here : specifier = name
    · have exported := run_namespaceOf_of_exports record evaluated
      simp [State.exportsOf, Loader.gathered, Entries.get?, here, exported]
    · simpa [State.exportsOf, Loader.gathered, Entries.get?, here] using ih

end

section

variable {s : State} {id : ModuleId} {r : ModuleRecord} {script : Script} {found : Entries Fields}

theorem run_evaluate (id : ModuleId) (s : State) :
    (evaluate id).run s = (evaluateWithin (s.modules.length + 1) id).run
      { s with events := s.events ++ [.evaluate id] } := rfl

/-- The dependencies of a linked script can be evaluated, and its body then sees the gathered
exports. -/
theorem evaluate_deps (record : s.modules[id]? = some r) (body : r.body = .source script)
    (bound : Bound (ModuleRecord.Offers .linked) (id + 1) s r.deps found) (events : List Event) :
    ∃ t r', (r.deps.forM fun dep => evaluateWithin s.modules.length dep.2).run
        (({ s with events } : State).modified id
          fun r => { r with status := .evaluating, body := r.body.begun }) = (.ok (), t) ∧
      Keeps id s t ∧ t.modules[id]? = some r' ∧
      runModule t r = script.run (s.globals r.context) (Loader.gathered found) := by
  have old := (List.getElem?_eq_some_iff.1 record).1
  obtain ⟨depth, size⟩ : ∃ depth, s.modules.length = depth + 1 :=
    Nat.exists_eq_add_one_of_ne_zero (Nat.ne_zero_of_lt old)
  have only := onlyAt_modified ({ s with events } : State) id
    fun r => { r with status := .evaluating, body := r.body.begun }
  have begun := getElem?_modified (s := { s with events }) record
    fun r => { r with status := .evaluating, body := r.body.begun }
  have recorded : Bound (ModuleRecord.Offers .linked) (id + 1) { s with events } r.deps found := by
    apply bound.pass
    intro i r exports _ record holds
    exact ⟨r, record, holds⟩
  obtain ⟨t, run, keeps, _, evaluated⟩ := (recorded.onlyAt only).evaluate depth
  have whole : Keeps id s t := (keeps_events id s events).trans
    ((only.keeps (Nat.le_refl id)).trans (keeps.mono (Nat.le_succ id)))
  refine ⟨t, _, ?_, whole, keeps.found (Nat.lt_succ_self id) begun, ?_⟩
  · rw [size]
    exact run
  · rw [runModule, body]
    simp only [evaluated.exportsOf, whole.globals]

theorem evaluate_of_ok {exports : Fields} (record : s.modules[id]? = some r)
    (status : r.status = .linked) (body : r.body = .source script)
    (bound : Bound (ModuleRecord.Offers .linked) (id + 1) s r.deps found)
    (ran : script.run (s.globals r.context) (Loader.gathered found) = .ok exports) :
    ∃ t r', (evaluate id).run s = (.ok (), t) ∧ Keeps id s t ∧ t.modules[id]? = some r' ∧
      r'.Exports exports := by
  obtain ⟨t, r', deps, keeps, own, ran'⟩ :=
    evaluate_deps record body bound (s.events ++ [.evaluate id])
  have run := run_evaluateWithin_of_ok (s := { s with events := s.events ++ [.evaluate id] }) record
    status deps (ran'.trans ran)
  have kept := keeps.trans ((onlyAt_modified t id ({ · with exports, status := .evaluated })).keeps
    (Nat.le_refl id))
  exact ⟨_, _, (run_evaluate id s).trans run, kept, getElem?_modified own _, rfl, rfl⟩

theorem evaluate_of_error {e : LoadError} (record : s.modules[id]? = some r)
    (status : r.status = .linked) (body : r.body = .source script)
    (bound : Bound (ModuleRecord.Offers .linked) (id + 1) s r.deps found)
    (ran : script.run (s.globals r.context) (Loader.gathered found) = .error e) :
    ∃ t, (evaluate id).run s = (.error e, t) ∧ Keeps id s t := by
  obtain ⟨t, r', deps, keeps, own, ran'⟩ :=
    evaluate_deps record body bound (s.events ++ [.evaluate id])
  have run := run_evaluateWithin_of_error (s := { s with events := s.events ++ [.evaluate id] })
    record status deps (ran'.trans ran)
  exact ⟨_, (run_evaluate id s).trans run,
    keeps.trans ((onlyAt_modified t id _).keeps (Nat.le_refl id))⟩

end

end State

end CodeCache
