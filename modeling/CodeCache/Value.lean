import CodeCache.Number

/-! # Values and documents

Objects, namespaces and tables of modules keep their entries in the order in which the names were
first inserted. Writing a name again replaces its value and keeps its place. Values are what
programs of the module language compute with, what packages export, and what is printed as JSON.

A document is what a JSON or YAML text holds before it is known what it is for. Tables keep repeated
keys. A string may be written that is no text, also as a key. -/

namespace CodeCache

universe u v

variable {α : Type u} {β : Type v}

abbrev Entries (α : Type u) := List (String × α)

namespace Entries

def get? : Entries α → String → Option α
  | [], _ => none
  | e :: es, key => if e.1 = key then some e.2 else get? es key

def insert : Entries α → String → α → Entries α
  | [], key, value => [(key, value)]
  | e :: es, key, value => if e.1 = key then (key, value) :: es else e :: insert es key value

def keys (es : Entries α) : List String := es.map (·.1)

/-- Insertion one after the other, so that the last value of a repeated name counts. -/
def ofList (pairs : List (String × α)) : Entries α :=
  pairs.foldl (fun es e => insert es e.1 e.2) []

def contains (es : Entries α) (key : String) : Bool := (get? es key).isSome

theorem get?_insert (es : Entries α) (key name : String) (value : α) :
    get? (insert es key value) name = if key = name then some value else get? es name := by
  induction es with
  | nil => rfl
  | cons e es ih =>
    by_cases he : e.1 = key
    · by_cases h : key = name <;> simp_all [insert, get?]
    · by_cases h : e.1 = name
      · subst h
        simp [insert, get?, he, Ne.symm he]
      · simp [insert, get?, he, h, ih]

/-- A known name keeps its place and a new one comes last. -/
theorem keys_insert (es : Entries α) (key : String) (value : α) :
    keys (insert es key value) = if key ∈ keys es then keys es else keys es ++ [key] := by
  induction es with
  | nil => simp [insert, keys]
  | cons e es ih =>
    simp only [keys] at ih
    by_cases he : e.1 = key
    · simp [insert, keys, he]
    · have hk : key ≠ e.1 := fun h => he h.symm
      by_cases h : key ∈ es.map (·.1) <;> simp [insert, keys, he, hk, ih, h]

theorem insert_of_get? {es : Entries α} {key : String} {value : α} (h : get? es key = some value) :
    insert es key value = es := by
  induction es with
  | nil => cases h
  | cons e es ih =>
    by_cases he : e.1 = key
    · simp only [get?, if_pos he, Option.some.injEq] at h
      simp [insert, ← he, ← h]
    · simp only [get?, if_neg he] at h
      simp [insert, he, ih h]

end Entries

end CodeCache

namespace CodeCache

inductive Value where
  | null
  | bool (b : Bool)
  | int (i : Int)
  | float (x : Number.Binary64)
  | str (s : String)
  | array (items : List Value)
  | object (entries : List (String × Value))
deriving Repr, Inhabited

abbrev Fields := Entries Value

def Value.fields : Value → Fields
  | object entries => entries
  | _ => []

/-- Numbers that are no integers of 64 bits only say whether a double can hold them, and a string
with an unpaired surrogate has no text. -/
inductive Document where
  | null
  | bool (b : Bool)
  | int (i : Int)
  | real (held : Bool)
  | text (t : Option String)
  | list (items : List Document)
  | table (entries : List (Option String × Document))
deriving Repr, Inhabited

namespace Document

def text? : Document → Option String
  | text t => t
  | _ => none

def bool? : Document → Option Bool
  | bool b => some b
  | _ => none

def natBelow? (bound : Nat) : Document → Option Nat
  | int i => if 0 ≤ i ∧ i < bound then some i.toNat else none
  | _ => none

def uint32? (d : Document) : Option UInt32 := (d.natBelow? UInt32.size).map UInt32.ofNat

def uint64? (d : Document) : Option UInt64 := (d.natBelow? UInt64.size).map UInt64.ofNat

def optional? {α : Type} (read : Document → Option α) : Document → Option (Option α)
  | null => some none
  | d => (read d).map some

def listOf? {α : Type} (read : Document → Option α) : Document → Option (List α)
  | list items => items.mapM read
  | _ => none

/-- The entries of a table that a record has fields for. All keys must be texts, and a field must
not be given twice. -/
def knownFields? (names : List String) (entries : List (Option String × Document)) :
    Option (Entries Document) := do
  let entries ← entries.mapM fun e => e.1.map (·, e.2)
  let known := entries.filter (·.1 ∈ names)
  if (Entries.keys known).Nodup then some known else none

/-- The fields of a record written as the list of their values; those at the end may be missing. -/
def listedFields? (names : List String) (items : List Document) : Option (Entries Document) :=
  if items.length ≤ names.length then some (names.zip items) else none

def fields? (names : List String) : Document → Option (Entries Document)
  | table entries => knownFields? names entries
  | list items => listedFields? names items
  | _ => none

def field? {α : Type} (fields : Entries Document) (name : String) (read : Document → Option α) :
    Option α :=
  (Entries.get? fields name).bind read

def fieldOr? {α : Type} (fields : Entries Document) (name : String) (read : Document → Option α)
    (default : α) : Option α :=
  match Entries.get? fields name with
  | some d => read d
  | none => some default

mutual
/-- All texts are texts, all numbers can be held, and nothing nests deeper than `depth`. -/
def isSound (depth : Nat) : Document → Bool
  | real held => held
  | text t => t.isSome
  | list items => 0 < depth && soundItems (depth - 1) items
  | table entries => 0 < depth && soundEntries (depth - 1) entries
  | _ => true
def soundItems (depth : Nat) : List Document → Bool
  | [] => true
  | d :: ds => isSound depth d && soundItems depth ds
def soundEntries (depth : Nat) : List (Option String × Document) → Bool
  | [] => true
  | (key, d) :: es => key.isSome && isSound depth d && soundEntries depth es
end

end Document

end CodeCache
