import CodeCache.Proofs.Linking

/-! # Import trees

Unfolding the imports of a blob gives a tree. The children of a blob are its specifiers, each once
and in order of first appearance: blobs again, or packages, which are leaves. A blob that is
imported in two places stands in both. The nodes of a tree are numbered from a given number on,
every node before its children and these in order, and every node stands for the record of an
evaluated module. -/

namespace CodeCache

inductive ImportForest where
  | none
  | package (specifier : String) (package : Package) (rest : ImportForest)
  | blob (specifier : String) (script : Script) (exports : Fields) (imports rest : ImportForest)

structure ImportTree where
  script : Script
  exports : Fields
  imports : ImportForest

namespace ModuleRecord

def ofScript (context : Option String) (script : Script) (deps : List (String × ModuleId))
    (exports : Fields) : ModuleRecord :=
  { body := .source script, context, status := .evaluated, deps, exports }

def ofPackage (context : Option String) (p : Package) : ModuleRecord :=
  { body := .synthetic p.exportNames none, context, status := .evaluated, exports := p.exports }

def ofLinked (context : Option String) (script : Script) (deps : List (String × ModuleId)) :
    ModuleRecord :=
  { body := .source script, context, status := .linked, deps }

def ofPending (context : Option String) (status : Status) (p : Package) : ModuleRecord :=
  { body := .synthetic p.exportNames (some p.setup), context, status }

/-- The module has been evaluated in the context. All its specifiers were linked, in order, and its
blob, if it has one, was used. -/
structure Settled (context : Option String) (r : ModuleRecord) : Prop where
  status : r.status = .evaluated
  rejection : r.rejection = none
  context : r.context = context
  specifiers : r.deps.map (·.1) = r.body.specifiers

end ModuleRecord

namespace ImportForest

def size : ImportForest → Nat
  | none => 0
  | package _ _ rest => rest.size + 1
  | blob _ _ _ imports rest => imports.size + rest.size + 1

def requests : ImportForest → List String
  | none => []
  | package specifier _ rest => specifier :: rest.requests
  | blob _ _ _ imports rest => imports.requests ++ rest.requests

def exports : ImportForest → Entries Fields
  | none => []
  | package specifier p rest => (specifier, p.exports) :: rest.exports
  | blob specifier _ exports _ rest => (specifier, exports) :: rest.exports

def deps : ImportForest → Nat → List (String × ModuleId)
  | none, _ => []
  | package specifier _ rest, n => (specifier, n) :: rest.deps (n + 1)
  | blob specifier _ _ imports rest, n => (specifier, n) :: rest.deps (n + 1 + imports.size)

def records (context : Option String) : ImportForest → Nat → List ModuleRecord
  | none, _ => []
  | package _ p rest, n => .ofPackage context p :: rest.records context (n + 1)
  | blob _ script exports imports rest, n =>
    .ofScript context script (imports.deps (n + 1)) exports ::
      (imports.records context (n + 1) ++ rest.records context (n + 1 + imports.size))

/-- The records once the specifiers have been linked: packages at the top are not evaluated yet. -/
def linked (context : Option String) : ImportForest → Nat → List ModuleRecord
  | none, _ => []
  | package _ p rest, n => .ofPending context .linked p :: rest.linked context (n + 1)
  | blob _ script exports imports rest, n =>
    .ofScript context script (imports.deps (n + 1)) exports ::
      (imports.records context (n + 1) ++ rest.linked context (n + 1 + imports.size))

variable {context : Option String}

@[simp] theorem length_records (forest : ImportForest) (n : Nat) :
    (forest.records context n).length = forest.size := by
  induction forest generalizing n with
  | none => rfl
  | package specifier p rest ih => simp [records, size, ih]
  | blob specifier script exports imports rest ih ih' => simp [records, size, ih, ih']

end ImportForest

namespace ImportTree

def size (tree : ImportTree) : Nat := tree.imports.size + 1

def records (context : Option String) (tree : ImportTree) (n : Nat) : List ModuleRecord :=
  .ofScript context tree.script (tree.imports.deps (n + 1)) tree.exports ::
    tree.imports.records context (n + 1)

def requests (tree : ImportTree) : List String := tree.imports.requests

variable {context : Option String} {tree : ImportTree} {n : Nat}

theorem length_records : (tree.records context n).length = tree.size := by
  simp [records, size]

end ImportTree

namespace Loader

variable {l : Loader} {m : Memory} {globals : Scope}

inductive Unfolds (l : Loader) (m : Memory) (globals : Scope) :
    List String → ImportForest → Prop where
  | none : Unfolds l m globals [] .none
  | package {specifier : String} {specifiers : List String} {p : Package} {rest : ImportForest}
      (conventional : l.config.isBytecode specifier = false)
      (answer : l.packages.answer specifier = .ok p) (others : Unfolds l m globals specifiers rest) :
      Unfolds l m globals (specifier :: specifiers) (.package specifier p rest)
  | blob {specifier : String} {specifiers : List String} {content : Bytes} {script : Script}
      {exports : Fields} {imports rest : ImportForest}
      (bytecode : l.config.isBytecode specifier = true)
      (file : m.get? (l.config.blobPath specifier) = some content)
      (decoded : l.decodeBlob (some (l.config.blobPath specifier)) content = .ok script)
      (unfolds : Unfolds l m globals script.specifiers imports)
      (ran : script.run globals (gathered imports.exports) = .ok exports)
      (others : Unfolds l m globals specifiers rest) :
      Unfolds l m globals (specifier :: specifiers) (.blob specifier script exports imports rest)

structure UnfoldsBlob (l : Loader) (m : Memory) (globals : Scope) (origin : Option Path)
    (content : Bytes) (tree : ImportTree) : Prop where
  decoded : l.decodeBlob origin content = .ok tree.script
  unfolds : l.Unfolds m globals tree.script.specifiers tree.imports
  ran : tree.script.run globals (gathered tree.imports.exports) = .ok tree.exports

def UnfoldsTo (l : Loader) (m : Memory) (globals : Scope) : BlobOrigin → ImportTree → Prop
  | .bytes content, tree => l.UnfoldsBlob m globals none content tree
  | .path p, tree => ∃ content, m.get? p = some content ∧
      l.UnfoldsBlob m globals (some p) content tree

/-- Every specifier is linked to a node of its own. -/
theorem Unfolds.keys_deps {specifiers : List String} {forest : ImportForest}
    (h : l.Unfolds m globals specifiers forest) (n : Nat) :
    (forest.deps n).map (·.1) = specifiers := by
  induction h generalizing n with
  | none => rfl
  | @package specifier _ _ _ _ _ _ ih => exact congrArg (specifier :: ·) (ih _)
  | @blob specifier _ _ _ _ _ _ _ _ _ _ _ _ _ ih => exact congrArg (specifier :: ·) (ih _)

theorem Unfolds.settled {specifiers : List String} {forest : ImportForest}
    (h : l.Unfolds m globals specifiers forest) {context : Option String} {n : Nat}
    {r : ModuleRecord} (member : r ∈ forest.records context n) : r.Settled context := by
  induction h generalizing n with
  | none => cases member
  | package _ _ _ ih =>
    rcases List.mem_cons.1 member with rfl | member
    · exact ⟨rfl, rfl, rfl, rfl⟩
    · exact ih member
  | blob _ _ _ unfolds _ _ ih ih' =>
    rcases List.mem_cons.1 member with rfl | member
    · exact ⟨rfl, rfl, rfl, unfolds.keys_deps _⟩
    rcases List.mem_append.1 member with member | member
    · exact ih member
    · exact ih' member

theorem UnfoldsBlob.settled {origin : Option Path} {content : Bytes} {tree : ImportTree}
    (h : l.UnfoldsBlob m globals origin content tree) {context : Option String} {n : Nat}
    {r : ModuleRecord} (member : r ∈ tree.records context n) : r.Settled context := by
  rcases List.mem_cons.1 member with rfl | member
  · exact ⟨rfl, rfl, rfl, h.unfolds.keys_deps _⟩
  · exact h.unfolds.settled member

theorem UnfoldsTo.settled {origin : BlobOrigin} {tree : ImportTree}
    (h : l.UnfoldsTo m globals origin tree) {context : Option String} {n : Nat} {r : ModuleRecord}
    (member : r ∈ tree.records context n) : r.Settled context := by
  cases origin with
  | bytes content => exact UnfoldsBlob.settled h member
  | path p =>
    obtain ⟨content, _, unfolds⟩ := h
    exact unfolds.settled member

theorem Unfolds.unique {specifiers : List String} {forest other : ImportForest}
    (h : l.Unfolds m globals specifiers forest) (k : l.Unfolds m globals specifiers other) :
    forest = other := by
  induction h generalizing other with
  | none =>
    cases k with
    | none => rfl
  | package conventional answer _ ih =>
    cases k with
    | package _ answer' others =>
      cases answer.symm.trans answer'
      rw [ih others]
    | blob bytecode => cases conventional.symm.trans bytecode
  | blob bytecode file decoded _ ran _ ih ih' =>
    cases k with
    | package conventional => cases bytecode.symm.trans conventional
    | blob _ file' decoded' unfolds ran' others =>
      cases file.symm.trans file'
      cases decoded.symm.trans decoded'
      cases ih unfolds
      cases ran.symm.trans ran'
      rw [ih' others]

theorem UnfoldsBlob.unique {origin : Option Path} {content : Bytes} {tree other : ImportTree}
    (h : l.UnfoldsBlob m globals origin content tree)
    (k : l.UnfoldsBlob m globals origin content other) : tree = other := by
  obtain ⟨script, exports, imports⟩ := tree
  obtain ⟨script', exports', imports'⟩ := other
  cases h.decoded.symm.trans k.decoded
  cases h.unfolds.unique k.unfolds
  cases h.ran.symm.trans k.ran
  rfl

/-- A blob has one import tree. -/
theorem UnfoldsTo.unique {origin : BlobOrigin} {tree other : ImportTree}
    (h : l.UnfoldsTo m globals origin tree) (k : l.UnfoldsTo m globals origin other) :
    tree = other := by
  cases origin with
  | bytes content => exact UnfoldsBlob.unique h k
  | path p =>
    obtain ⟨content, file, unfolds⟩ := h
    obtain ⟨content', file', unfolds'⟩ := k
    cases file.symm.trans file'
    exact unfolds.unique unfolds'

end Loader

end CodeCache
