import CodeCache.Blob.Edit
import CodeCache.Error
import CodeCache.Header
import CodeCache.Script.Parser
import CodeCache.Text

/-! # Engine state

The unchanging part of the reference engine is its build: its version text, a fingerprint, and the
header offsets at which it compares that fingerprint. The words compared are the ones that the
built-in patch table copies for the engine's version, or all three when the version text is not
understood.

The engine holds modules, numbered in the order of their creation, and named contexts with their
globals. It also keeps the calls made to it and the packages asked for, in order. A module is made
from a source, from the blob that goes with a source, or from exports that are given to it. -/

namespace CodeCache

structure Build where
  version : String
  fingerprint : Blob.Fingerprint
  checkedOffsets : List Nat

namespace Build

/-- The first bytes of the digest of the version text and the build number. -/
def fingerprintOf (version : String) (number : UInt64) : Blob.Fingerprint :=
  let digest := Digest.hash (Text.Utf8.encode s!"{version}#{number.toNat}")
  #v[digest.word 0, digest.word 4, digest.word 8]

/-- The first byte of every word in a range. -/
def wordStarts (r : Patch.Range) : List Nat :=
  let start := r.start.toNat
  List.range' start ((r.stop.toNat - start + 3) / 4) 4

def offsetsFor (version : String) : List Nat :=
  match Version.parse? version >>= Patch.Table.builtin.select with
  | none => [12, 16, 20]
  | some r => (r.ranges.flatMap wordStarts).filter fun o => 12 ≤ o && o < Header.size

section

variable {version : String} {v : Version} {r : Patch.Range} {o : Nat}

theorem mem_wordStarts :
    o ∈ wordStarts r ↔ r.start.toNat ≤ o ∧ o < r.stop.toNat ∧ 4 ∣ o - r.start.toNat := by
  rw [wordStarts, List.mem_range']
  constructor
  · rintro ⟨i, inside, rfl⟩
    omega
  · rintro ⟨low, high, i, hi⟩
    exact ⟨i, by omega, by omega⟩

theorem offsetsFor_of_unread (h : Version.parse? version = none) :
    offsetsFor version = [12, 16, 20] := by
  rw [offsetsFor, h]
  rfl

/-- An engine checks the words that the built-in table copies for its line of versions. -/
theorem offsetsFor_of_parse (h : Version.parse? version = some v) :
    offsetsFor version =
      if v.major = 8 ∧ (v.minor = 8 ∨ v.minor = 9) then [16, 20]
      else if 12 ≤ v.major ∧ v.major ≤ 16 then [12]
      else [12, 16] := by
  rw [offsetsFor, h, Option.bind_eq_bind, Option.bind_some, Patch.Table.select, Patch.Table.builtin]
  by_cases legacy : v.major = 8 ∧ (v.minor = 8 ∨ v.minor = 9)
  · rw [if_pos legacy, List.find?_cons_of_pos]
    · rfl
    · simp [Patch.Recipe.applies, Patch.Predicate.holds, legacy]
  rw [if_neg legacy, List.find?_cons_of_neg]
  · by_cases single : 12 ≤ v.major ∧ v.major ≤ 16
    · rw [if_pos single, List.find?_cons_of_pos]
      · rfl
      · simp [Patch.Recipe.applies, Patch.Predicate.holds, single]
    · rw [if_neg single, List.find?_cons_of_neg]
      · rfl
      · simpa [Patch.Recipe.applies, Patch.Predicate.holds] using single
  · simpa [Patch.Recipe.applies, Patch.Predicate.holds, and_or_left] using legacy

theorem mem_offsetsFor (h : o ∈ offsetsFor version) : o = 12 ∨ o = 16 ∨ o = 20 := by
  cases parsed : Version.parse? version with
  | none => simpa [offsetsFor_of_unread parsed] using h
  | some v =>
    rw [offsetsFor_of_parse parsed] at h
    split at h
    · simp only [List.mem_cons, List.not_mem_nil, or_false] at h
      exact .inr h
    · split at h <;> simp only [List.mem_cons, List.not_mem_nil, or_false] at h <;> omega

end

def ofVersion (version : String) (number : UInt64) : Build where
  version := version
  fingerprint := fingerprintOf version number
  checkedOffsets := offsetsFor version

def compile (b : Build) (source : String) : Except Script.SyntaxError Bytes := do
  let s ← Script.parse source
  return Blob.encode s (Text.units16 source) b.fingerprint

end Build

structure Setup where
  exports : List (String × Value)
  failure : Option String := none

/-- A placeholder imports nothing and has no effect. A synthetic module loses its setup when its
evaluation begins. -/
inductive ModuleBody where
  | source (script : Script)
  | placeholder (p : Placeholder)
  | synthetic (names : List String) (setup : Option Setup)

namespace ModuleBody

def specifiers : ModuleBody → List String
  | source script => script.specifiers
  | _ => []

def isSynthetic : ModuleBody → Bool
  | synthetic .. => true
  | _ => false

/-- The body once its evaluation has begun. -/
def begun : ModuleBody → ModuleBody
  | synthetic names _ => synthetic names none
  | body => body

end ModuleBody

structure ModuleRecord where
  body : ModuleBody
  context : Option String
  rejection : Option Blob.Rejection := none
  status : Status := .unlinked
  deps : List (String × ModuleId) := []
  exports : Fields := []

/-- A call made to the engine. Lengths of sources are in UTF-16 units. -/
inductive Event where
  | compile (units : Nat)
  | source (units : Nat) (cached : Option Nat) (context : Option String) (id : ModuleId)
  | synthetic (names : List String) (context : Option String) (id : ModuleId)
  | link (id : ModuleId)
  | resolve (specifier : String) (referrer : ModuleId)
  | evaluate (id : ModuleId)
deriving DecidableEq, Repr

structure State where
  modules : List ModuleRecord := []
  contexts : Entries Fields := []
  requests : List String := []
  events : List Event := []

/-- A computation on the engine state. What it did stays done when it fails. -/
abbrev Action := ExceptT LoadError (StateM State)

inductive Source where
  | text (s : String)
  | placeholder (p : Placeholder)

namespace Source

def units : Source → Nat
  | text s => Text.units16 s
  | placeholder p => p.length

def compile : Source → Except Script.SyntaxError ModuleBody
  | text s => (Script.parse s).map .source
  | placeholder p => .ok (.placeholder p)

end Source

namespace State

def record (e : Event) : Action Unit := modify fun s => { s with events := s.events ++ [e] }

def moduleAt (id : ModuleId) : Action ModuleRecord := do
  match (← get).modules[id]? with
  | some r => return r
  | none => throw (.noModule id)

def update (id : ModuleId) (f : ModuleRecord → ModuleRecord) : Action Unit :=
  modify fun s => { s with modules := s.modules.modify id f }

def setStatus (id : ModuleId) (status : Status) : Action Unit := update id ({ · with status })

def add (r : ModuleRecord) : Action ModuleId := do
  let id := (← get).modules.length
  modify fun s => { s with modules := s.modules ++ [r] }
  return id

theorem run_record (e : Event) (s : State) :
    (record e).run s = (.ok (), { s with events := s.events ++ [e] }) := rfl

theorem run_add (r : ModuleRecord) (s : State) :
    (add r).run s = (.ok s.modules.length, { s with modules := s.modules ++ [r] }) := rfl

theorem run_moduleAt (id : ModuleId) (s : State) :
    (moduleAt id).run s =
      match s.modules[id]? with
      | some r => (.ok r, s)
      | none => (.error (.noModule id), s) := by
  show (match s.modules[id]? with
    | some r => pure r
    | none => throw (.noModule id) : Action ModuleRecord).run s = _
  cases s.modules[id]? <;> rfl

def compile (b : Build) (source : String) : Action Bytes := do
  record (.compile (Text.units16 source))
  match b.compile source with
  | .ok blob => return blob
  | .error e => throw (.compile e)

/-- What a module is made of, and why the blob was not used if it was not. -/
def instantiate (b : Build) (source : Source) (cached : Option Bytes) :
    Except Script.SyntaxError (ModuleBody × Option Blob.Rejection) :=
  match cached.map fun blob => Blob.decode blob source.units b.fingerprint b.checkedOffsets with
  | some (.ok script) => .ok (.source script, none)
  | some (.error rejection) => source.compile.map fun body => (body, some rejection)
  | none => source.compile.map fun body => (body, none)

def sourceModule (b : Build) (source : Source) (cached : Option Bytes) (context : Option String) :
    Action ModuleId := do
  match instantiate b source cached with
  | .error e => throw (.compile e)
  | .ok (body, rejection) =>
    let id ← add { body, context, rejection }
    record (.source source.units (cached.map List.length) context id)
    return id

def syntheticModule (names : List String) (setup : Setup) (context : Option String) :
    Action ModuleId := do
  let id ← add { body := .synthetic names (some setup), context }
  record (.synthetic names context id)
  return id

def globals (s : State) (context : Option String) : Scope := fun name => do
  Entries.get? (← Entries.get? s.contexts (← context)) name

def setGlobal (s : State) (context name : String) (value : Value) : State :=
  let fields := (Entries.get? s.contexts context).getD []
  { s with contexts := Entries.insert s.contexts context (Entries.insert fields name value) }

def namespaceOf (id : ModuleId) : Action Fields := do
  let r ← moduleAt id
  if r.status = .evaluated then return r.exports
  else throw (.evaluation (.unavailable r.status))

end State

end CodeCache
