import CodeCache.Bytes
import CodeCache.Text

/-! # Storage

A path keeps its spelling for messages. What it denotes is its list of components: repeated slashes,
a slash at the end and `.` do not count, except for a `.` at the very beginning, and `..` is never
resolved. Two paths are the same when their components are.

Files in memory are contents under paths. There are no directories, a path finds what was written
under any spelling of it, a missing file is reported by name and a file that is no text by the place
where it stops being one.

A disk holds the files around a working directory. A path is followed piece by piece, and every
piece but the last must lead to a directory. The working directory, the directories above it and the
root are always there; of what else they hold only what was written is known. Names and paths have a
greatest length in bytes, and no path may hold a null character. A disk answers with the texts of
the operating system.

Where the working directory lies below the root is not represented. A file of the working directory
is known by its relative paths only: under an absolute path, or one that leaves the directory and
comes back by its name, it counts as another file. -/

namespace CodeCache

structure Path where
  text : String
deriving DecidableEq, Repr

inductive Path.Component where
  | root
  | current
  | parent
  | name (s : String)
deriving DecidableEq, Repr

namespace Path

def parts (p : Path) : List String := (p.text.toList.splitOn '/').map String.ofList

def isAbsolute (p : Path) : Bool := p.text.toList.head? = some '/'

/-- The component that a piece stands for anywhere but at the beginning. -/
def component? (part : String) : Option Component :=
  if part = "" ∨ part = "." then none else if part = ".." then some .parent else some (.name part)

def lead (p : Path) : List Component :=
  if p.isAbsolute then [.root] else if p.parts.head? = some "." then [.current] else []

def components (p : Path) : List Component := p.lead ++ p.parts.filterMap component?

def same (p q : Path) : Bool := p.components = q.components

/-- An absolute path is taken as it is; another one is appended after a slash, unless the base is
empty or ends with one. -/
def join (base p : Path) : Path :=
  if p.isAbsolute then p
  else if base.text = "" ∨ base.text.toList.getLast? = some '/' then ⟨base.text ++ p.text⟩
  else ⟨base.text ++ "/" ++ p.text⟩

def fileName? (p : Path) : Option String :=
  match p.components.getLast? with
  | some (.name s) => some s
  | _ => none

/-- What follows the last point of the file name, which must not be its first character. -/
def extension? (p : Path) : Option String := do
  let cs := (← p.fileName?).toList
  let after := (cs.reverse.takeWhile (· ≠ '.')).reverse
  if after.length + 1 < cs.length then some (String.ofList after) else none

/-- The beginnings of a path, given by its pieces from the last to the first, that end with one of
its components; the longest comes first. -/
def beginnings : List String → List Path
  | [] => []
  | part :: before =>
    if part = "" ∨ part = "." ∧ before ≠ [] then beginnings before
    else ⟨String.intercalate "/" (part :: before).reverse⟩ :: beginnings before

def ancestors (p : Path) : List Path := (beginnings p.parts.reverse).tail

theorem same_refl (p : Path) : p.same p := by simp [same]

theorem same_comm (p q : Path) : p.same q = q.same p := by simp [same, eq_comm]

end Path

/-- A missing `path` and a text with a `flaw` are the errors of files in memory, the others those of
a disk. -/
inductive StorageError where
  | fileNotFound (path : Path)
  | notUtf8 (flaw : Text.Utf8Flaw)
  | invalidStream
  | noEntry
  | entryExists
  | notDirectory
  | isDirectory
  | nameTooLong
  | nulInPath
  | other (text : String)
deriving DecidableEq, Repr

def StorageError.message : StorageError → String
  | fileNotFound path => s!"File not found: {path.text}"
  | notUtf8 flaw => flaw.message
  | invalidStream => "stream did not contain valid UTF-8"
  | noEntry => "No such file or directory (os error 2)"
  | entryExists => "File exists (os error 17)"
  | notDirectory => "Not a directory (os error 20)"
  | isDirectory => "Is a directory (os error 21)"
  | nameTooLong => "File name too long (os error 36)"
  | nulInPath => "file name contained an unexpected NUL byte"
  | other text => text

structure Memory where
  files : List (Path × Bytes) := []
deriving Repr

namespace Memory

def get? (m : Memory) (p : Path) : Option Bytes := (m.files.find? (·.1.same p)).map (·.2)

def read (m : Memory) (p : Path) : Except StorageError Bytes :=
  match m.get? p with
  | some content => .ok content
  | none => .error (.fileNotFound p)

def replace (p : Path) (content : Bytes) : List (Path × Bytes) → List (Path × Bytes)
  | [] => [(p, content)]
  | f :: fs => if f.1.same p then (f.1, content) :: fs else f :: replace p content fs

def write (m : Memory) (p : Path) (content : Bytes) : Memory := ⟨replace p content m.files⟩

/-- What is written under a path is found under all its spellings, and nothing else changes. -/
theorem get?_write (m : Memory) (p q : Path) (content : Bytes) :
    (m.write p content).get? q = if p.same q then some content else m.get? q := by
  obtain ⟨files⟩ := m
  simp only [write, get?]
  induction files with
  | nil => by_cases h : p.same q <;> simp [replace, h]
  | cons f fs ih =>
    by_cases hf : f.1.same p
    · have hc : f.1.components = p.components := by simpa [Path.same] using hf
      by_cases h : p.same q <;> simp_all [replace, Path.same]
    · by_cases hq : f.1.same q
      · have : ¬ p.same q := by
          simp only [Path.same, decide_eq_true_eq] at *
          intro h
          exact hf (hq.trans h.symm)
        simp [replace, hf, hq, this]
      · simp [replace, hf, hq, ih]

end Memory

inductive Node where
  | file (content : Bytes)
  | directory
deriving DecidableEq, Repr

/-- The root, or the directory that many levels above the working directory. -/
inductive Base where
  | above (levels : Nat)
  | root
deriving DecidableEq, Repr

structure Location where
  base : Base
  names : List String := []
deriving DecidableEq, Repr

namespace Location

def child (l : Location) (name : String) : Location := { l with names := l.names ++ [name] }

def parent (l : Location) : Location :=
  if l.names ≠ [] then { l with names := l.names.dropLast }
  else
    match l.base with
    | .above levels => ⟨.above (levels + 1), []⟩
    | .root => l

end Location

structure Disk where
  nodes : List (Location × Node) := []
deriving DecidableEq, Repr

namespace Disk

def node? (d : Disk) (l : Location) : Option Node :=
  if l.names = [] then some .directory else (d.nodes.find? (·.1 = l)).map (·.2)

def replace (l : Location) (node : Node) : List (Location × Node) → List (Location × Node)
  | [] => [(l, node)]
  | e :: es => if e.1 = l then (l, node) :: es else e :: replace l node es

def set (d : Disk) (l : Location) (node : Node) : Disk := ⟨replace l node d.nodes⟩

def maxNameSize : Nat := 255

def maxPathSize : Nat := 4095

/-- Goes on from a place, which must be a directory, by one piece of a path. -/
def step (d : Disk) (l : Location) (part : String) : Except StorageError Location :=
  match d.node? l with
  | none => .error .noEntry
  | some (.file _) => .error .notDirectory
  | some .directory =>
    if part = "" ∨ part = "." then .ok l
    else if part = ".." then .ok l.parent
    else if maxNameSize < part.utf8ByteSize then .error .nameTooLong
    else .ok (l.child part)

def walk (d : Disk) (p : Path) (parts : List String) : Except StorageError Location :=
  if '\x00' ∈ p.text.toList then .error .nulInPath
  else if p.text = "" then .error .noEntry
  else if maxPathSize < p.text.utf8ByteSize then .error .nameTooLong
  else parts.foldlM d.step ⟨if p.isAbsolute then .root else .above 0, []⟩

def locate (d : Disk) (p : Path) : Except StorageError Location := d.walk p p.parts

def read (d : Disk) (p : Path) : Except StorageError Bytes := do
  match d.node? (← d.locate p) with
  | none => .error .noEntry
  | some (.file content) => .ok content
  | some .directory => .error .isDirectory

def entry? (d : Disk) (p : Path) : Option Node := (d.locate p).toOption.bind d.node?

/-- Pieces without the empty ones at the end, which come from slashes. -/
def withoutSlashes (parts : List String) : List String :=
  (parts.reverse.dropWhile (· = "")).reverse

def checkParent (d : Disk) (p : Path) (parts : List String) : Except StorageError Unit := do
  let _ ← d.step (← d.walk p parts.dropLast) "."

def put (d : Disk) (p : Path) (content : Bytes) : Except StorageError Disk := do
  let parts := withoutSlashes p.parts
  if parts ≠ p.parts then
    d.checkParent p parts
    throw .isDirectory
  let l ← d.locate p
  match d.node? l with
  | some .directory => throw .isDirectory
  | _ => return d.set l (.file content)

def mkdir (d : Disk) (p : Path) : Except StorageError Disk := do
  let parts := withoutSlashes p.parts
  d.checkParent p parts
  if parts = [] ∨ parts.getLast? = some "." ∨ parts.getLast? = some ".." then throw .entryExists
  let l ← d.walk p parts
  match d.node? l with
  | some _ => throw .entryExists
  | none => return d.set l .directory

def unlessDirectory (d : Disk) (p : Path) (e : StorageError) : Except StorageError Unit :=
  if d.entry? p = some .directory then .ok () else .error e

/-- Makes the first of the given directories; where its parent is missing the others come first. The
disk keeps what was made before a failure. -/
def mkdirs (d : Disk) : List Path → Except StorageError Unit × Disk
  | [] => (.ok (), d)
  | p :: above =>
    match d.mkdir p with
    | .ok d => (.ok (), d)
    | .error .noEntry =>
      match mkdirs d above with
      | (.error e, d) => (.error e, d)
      | (.ok (), d) =>
        match d.mkdir p with
        | .ok d => (.ok (), d)
        | .error e => (d.unlessDirectory p e, d)
    | .error e => (d.unlessDirectory p e, d)

def write (d : Disk) (p : Path) (content : Bytes) : Except StorageError Unit × Disk :=
  match d.mkdirs p.ancestors with
  | (.error e, d) => (.error e, d)
  | (.ok (), d) =>
    match d.put p content with
    | .ok d => (.ok (), d)
    | .error e => (.error e, d)

theorem find?_replace (l k : Location) (node : Node) (nodes : List (Location × Node)) :
    (replace l node nodes).find? (·.1 = k)
      = if l = k then some (l, node) else nodes.find? (·.1 = k) := by
  induction nodes with
  | nil => by_cases h : l = k <;> simp [replace, h]
  | cons e es ih =>
    by_cases he : e.1 = l
    · by_cases h : l = k
      · simp [replace, he, h]
      · simp [replace, he, h]
    · by_cases h : e.1 = k
      · have : l ≠ k := fun hl => he (h.trans hl.symm)
        rw [replace, if_neg he]
        simp [h, this]
      · simp [replace, he, h, ih]

/-- Setting a node changes what stands at its place, and nothing else. -/
theorem node?_set (d : Disk) (l k : Location) (node : Node) (h : l.names ≠ []) :
    (d.set l node).node? k = if l = k then some node else d.node? k := by
  by_cases hk : k.names = []
  · have : l ≠ k := fun hl => h (hl ▸ hk)
    simp [node?, hk, this]
  · by_cases hl : l = k <;> simp [node?, set, find?_replace, hk, hl]

def byteSize (d : Disk) : Nat :=
  d.nodes.foldr
    (fun e n => match e.2 with | .file content => content.length + n | .directory => n) 0

end Disk

inductive Storage where
  | memory (files : Memory)
  | disk (directory : Disk)
deriving Repr

namespace Storage

def read : Storage → Path → Except StorageError Bytes
  | memory m, p => m.read p
  | disk d, p => d.read p

def textOf (s : Storage) (content : Bytes) : Except StorageError String :=
  match Text.Utf8.decode content, s with
  | .ok text, _ => .ok text
  | .error flaw, memory _ => .error (.notUtf8 flaw)
  | .error _, disk _ => .error .invalidStream

def readText (s : Storage) (p : Path) : Except StorageError String := s.read p >>= s.textOf

def isPresent : Storage → Path → Bool
  | memory m, p => (m.get? p).isSome
  | disk d, p => (d.entry? p).isSome

/-- The outcome of writing a file, and the storage afterwards. -/
def write : Storage → Path → Bytes → Except StorageError Unit × Storage
  | memory m, p, content => (.ok (), memory (m.write p content))
  | disk d, p, content =>
    let (outcome, d) := d.write p content
    (outcome, disk d)

/-- More paths than can be read one out of the other without reading one twice: in memory there are
no more than files, and on disk a path comes from a specifier that some file spells out. -/
def pathBound : Storage → Nat
  | memory m => m.files.length + 2
  | disk d => d.byteSize + 3

end Storage

structure Access (m : Type → Type) where
  read : Path → m (Except StorageError Bytes)
  write : Path → Bytes → m (Except StorageError Unit)
  isPresent : Path → m Bool

namespace Disk

def overwrite (d : Disk) (p : Path) (content : Bytes) : Except StorageError Unit × Disk :=
  match d.put p content with
  | .ok d => (.ok (), d)
  | .error e => (.error e, d)

def access : Access (StateM Disk) where
  read p := fun d => (d.read p, d)
  write p content := fun d => d.overwrite p content
  isPresent p := fun d => ((d.entry? p).isSome, d)

end Disk

end CodeCache
