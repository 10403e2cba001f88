import CodeCache.Error
import CodeCache.Header
import CodeCache.Json
import CodeCache.Storage
import CodeCache.Value
import CodeCache.Yaml.Form

/-! # Configuration

What a loader can be told: which imports are blobs and where they lie, the reference source whose
blob lends its header, the patch recipes, and how sources are bundled.

The name of a file tells its language: `.yaml` and `.yml` files are YAML, all others JSON. A
configuration is a table in which every setting may be left out and unknown ones are ignored. A
record can also be written as the list of its fields in order. A predicate says by its kind which
fields it has; since the kind may come last, everything in a predicate must be sound. It is printed
as a JSON value, with its fields in a fixed order and none left out. -/

namespace CodeCache

inductive BundleFormat where
  | es
deriving DecidableEq, Repr

structure BundleOptions where
  format : BundleFormat := .es
  minify : Bool := true
  silenceWarnings : Bool := true
deriving DecidableEq, Repr

/-- From the major version `flushBytecodeMinMajor` on engines may drop compiled code and are told
not to. The `patchRecipes`, if given, replace the built-in ones. -/
structure Config where
  bytecodeExtension : String := ".jsc"
  flushBytecodeMinMajor : UInt32 := 12
  referenceSource : String := "\"ಠ_ಠ\""
  patchRecipes : Option (List Patch.Recipe) := none
  rootDir : Option String := none
  bundle : BundleOptions := {}
deriving DecidableEq, Repr

structure Overrides where
  bytecodeExtension : Option String := none
  flushBytecodeMinMajor : Option UInt32 := none
  rootDir : Option String := none
  minify : Option Bool := none
deriving DecidableEq, Repr

namespace Overrides

def Decides {α : Type} (given : Option α) (before after : α) : Prop :=
  given = some after ∨ given = none ∧ after = before

/-- What is given has come in place of the setting before, and nothing else has changed. -/
structure Merged (o : Overrides) (c d : Config) : Prop where
  bytecodeExtension : Decides o.bytecodeExtension c.bytecodeExtension d.bytecodeExtension
  flushBytecodeMinMajor :
    Decides o.flushBytecodeMinMajor c.flushBytecodeMinMajor d.flushBytecodeMinMajor
  rootDir : Decides (o.rootDir.map some) c.rootDir d.rootDir
  minify : Decides o.minify c.bundle.minify d.bundle.minify
  others : { d with
    bytecodeExtension := c.bytecodeExtension
    flushBytecodeMinMajor := c.flushBytecodeMinMajor
    rootDir := c.rootDir
    bundle := { d.bundle with minify := c.bundle.minify } } = c

theorem decides_iff {α : Type} {given : Option α} {before after : α} :
    Decides given before after ↔ after = given.getD before := by
  cases given <;> simp [Decides, eq_comm]

end Overrides

namespace Config

def merge (c : Config) (o : Overrides) : Config :=
  { c with
    bytecodeExtension := o.bytecodeExtension.getD c.bytecodeExtension
    flushBytecodeMinMajor := o.flushBytecodeMinMajor.getD c.flushBytecodeMinMajor
    rootDir := o.rootDir.or c.rootDir
    bundle := { c.bundle with minify := o.minify.getD c.bundle.minify } }

def table (c : Config) : Patch.Table :=
  match c.patchRecipes with
  | some recipes => ⟨recipes⟩
  | none => .builtin

def isBytecode (c : Config) (specifier : String) : Bool :=
  c.bytecodeExtension.toList.isSuffixOf specifier.toList

def blobPath (c : Config) (specifier : String) : Path :=
  match c.rootDir with
  | some root => Path.join ⟨root⟩ ⟨specifier⟩
  | none => ⟨specifier⟩

theorem merged_iff {c d : Config} {o : Overrides} : o.Merged c d ↔ d = c.merge o := by
  have root : o.rootDir.or c.rootDir = (o.rootDir.map some).getD c.rootDir := by
    cases o.rootDir <;> rfl
  constructor
  · rintro ⟨extension, major, directory, minify, others⟩
    rw [Overrides.decides_iff] at extension major directory minify
    rw [merge, ← extension, ← major, root, ← directory, ← minify, ← others]
  · rintro rfl
    exact ⟨Overrides.decides_iff.2 rfl, Overrides.decides_iff.2 rfl,
      Overrides.decides_iff.2 root, Overrides.decides_iff.2 rfl, rfl⟩

theorem merge_nothing (c : Config) : c.merge {} = c := rfl

end Config

open Yaml

def BundleOptions.form : Form :=
  Form.record [("format", Form.name), ("minify", Form.flag), ("silenceWarnings", Form.flag)]

namespace Patch

def Range.form : Form := Form.record [("start", Form.natural), ("end", Form.natural)]

def Predicate.form : Form :=
  Form.variant "kind"
    [("majorMinor", ["major", "minor"]), ("majorRange", ["min", "max"]), ("any", [])]

def Recipe.form : Form :=
  Form.record
    [("name", Form.text), ("when", Form.list Predicate.form), ("ranges", Form.list Range.form)]

end Patch

def Config.form : Form :=
  Form.record [
    ("bytecodeExtension", Form.text),
    ("flushBytecodeMinMajor", Form.natural),
    ("referenceSource", Form.text),
    ("patchRecipes", Form.optional (Form.list Patch.Recipe.form)),
    ("rootDir", Form.optional Form.text),
    ("bundle", BundleOptions.form)]

end CodeCache

namespace CodeCache

def BundleFormat.name : BundleFormat → String
  | es => "es"

def BundleOptions.toValue (b : BundleOptions) : Value :=
  .object [("format", .str b.format.name), ("minify", .bool b.minify),
    ("silenceWarnings", .bool b.silenceWarnings)]

namespace Patch

def Range.toValue (r : Range) : Value :=
  .object [("start", .int r.start.toNat), ("end", .int r.stop.toNat)]

def Predicate.toValue : Predicate → Value
  | majorMinor major minor =>
    .object [("kind", .str "majorMinor"), ("major", .int major.toNat), ("minor", .int minor.toNat)]
  | majorRange least greatest =>
    .object [("kind", .str "majorRange"), ("min", .int least.toNat), ("max", .int greatest.toNat)]
  | any => .object [("kind", .str "any")]

def Recipe.toValue (r : Recipe) : Value :=
  .object [("name", .str r.name), ("when", .array (r.conditions.map Predicate.toValue)),
    ("ranges", .array (r.ranges.map Range.toValue))]

end Patch

def Value.ofOption {α : Type} (f : α → Value) : Option α → Value
  | none => .null
  | some a => f a

def Config.toValue (c : Config) : Value :=
  .object [
    ("bytecodeExtension", .str c.bytecodeExtension),
    ("flushBytecodeMinMajor", .int c.flushBytecodeMinMajor.toNat),
    ("referenceSource", .str c.referenceSource),
    ("patchRecipes", .ofOption (fun rs => .array (rs.map Patch.Recipe.toValue)) c.patchRecipes),
    ("rootDir", .ofOption .str c.rootDir),
    ("bundle", c.bundle.toValue)]

/-- A name without a value can also be written as a table of one entry. -/
def BundleFormat.read? : Document → Option BundleFormat
  | .text (some name)
  | .table [(some name, .null)] => if name = "es" then some .es else none
  | _ => none

def BundleOptions.read? (d : Document) : Option BundleOptions := do
  let fields ← d.fields? ["format", "minify", "silenceWarnings"]
  let initial : BundleOptions := {}
  return {
    format := ← Document.fieldOr? fields "format" BundleFormat.read? initial.format
    minify := ← Document.fieldOr? fields "minify" Document.bool? initial.minify
    silenceWarnings :=
      ← Document.fieldOr? fields "silenceWarnings" Document.bool? initial.silenceWarnings }

namespace Patch

def Range.read? (d : Document) : Option Range := do
  let fields ← d.fields? ["start", "end"]
  return {
    start := ← Document.field? fields "start" Document.uint64?
    stop := ← Document.field? fields "end" Document.uint64? }

namespace Predicate

/-- The depth that is left for the parts of a predicate, which itself stands on the fifth level. -/
def partDepth : Nat := 122

/-- The predicate of a kind, with its fields given by name or in order. -/
def ofKind? (kind : String) (fieldsFor : List String → Option (Entries Document)) :
    Option Predicate := do
  if kind = "majorMinor" then
    let fields ← fieldsFor ["major", "minor"]
    return .majorMinor (← Document.field? fields "major" Document.uint32?)
      (← Document.field? fields "minor" Document.uint32?)
  else if kind = "majorRange" then
    let fields ← fieldsFor ["min", "max"]
    return .majorRange (← Document.field? fields "min" Document.uint32?)
      (← Document.field? fields "max" Document.uint32?)
  else if kind = "any" then
    let _ ← fieldsFor []
    return .any
  else none

def read? (d : Document) : Option Predicate :=
  if !d.isSound (partDepth + 1) then none
  else
    match d with
    | .table entries =>
      let isKind := fun e : Option String × Document => e.1 = some "kind"
      match entries.filter isKind with
      | [(_, kind)] => do
        let others := entries.filter fun e => !isKind e
        ofKind? (← kind.text?) fun names => Document.knownFields? names others
      | _ => none
    | .list (kind :: items) => do
      ofKind? (← kind.text?) fun names => Document.listedFields? names items
    | _ => none

end Predicate

def Recipe.read? (d : Document) : Option Recipe := do
  let fields ← d.fields? ["name", "when", "ranges"]
  return {
    name := ← Document.field? fields "name" Document.text?
    conditions := ← Document.field? fields "when" (Document.listOf? Predicate.read?)
    ranges := ← Document.field? fields "ranges" (Document.listOf? Range.read?) }

def Table.read? (d : Document) : Option Table := do
  let fields ← d.fields? ["recipes"]
  return ⟨← Document.field? fields "recipes" (Document.listOf? Recipe.read?)⟩

end Patch

def Config.read? (d : Document) : Option Config := do
  let fields ← d.fields?
    ["bytecodeExtension", "flushBytecodeMinMajor", "referenceSource", "patchRecipes", "rootDir",
      "bundle"]
  let initial : Config := {}
  return {
    bytecodeExtension :=
      ← Document.fieldOr? fields "bytecodeExtension" Document.text? initial.bytecodeExtension
    flushBytecodeMinMajor :=
      ← Document.fieldOr? fields "flushBytecodeMinMajor" Document.uint32?
        initial.flushBytecodeMinMajor
    referenceSource :=
      ← Document.fieldOr? fields "referenceSource" Document.text? initial.referenceSource
    patchRecipes :=
      ← Document.fieldOr? fields "patchRecipes"
        (Document.optional? (Document.listOf? Patch.Recipe.read?)) initial.patchRecipes
    rootDir :=
      ← Document.fieldOr? fields "rootDir" (Document.optional? Document.text?) initial.rootDir
    bundle := ← Document.fieldOr? fields "bundle" BundleOptions.read? initial.bundle }

end CodeCache

namespace CodeCache.Config

inductive Dialect where
  | json
  | yaml
deriving DecidableEq, Repr

def dialectOf (p : Path) : Dialect :=
  if p.extension? = some "yaml" ∨ p.extension? = some "yml" then .yaml else .json

def parse? (dialect : Dialect) (text : String) : Option Config :=
  match dialect with
  | .json => Json.parse? text >>= read?
  | .yaml => form.read? text >>= read?

/-- The configuration that a file holds, given what reading the file came to. Files that are no text
count as unreadable. -/
def ofFile (p : Path) : Except StorageError Bytes → Except LoadError Config
  | .error e => .error (.storage e)
  | .ok content =>
    match Text.Utf8.decode? content with
    | none => .error (.storage .invalidStream)
    | some text =>
      match parse? (dialectOf p) text with
      | some c => .ok c
      | none => .error .configuration

def json (c : Config) : String := Json.pretty c.toValue

def initialYaml : String :=
  "bytecodeExtension: .jsc\n" ++
  "flushBytecodeMinMajor: 12\n" ++
  "referenceSource: '\"ಠ_ಠ\"'\n" ++
  "patchRecipes: null\n" ++
  "rootDir: null\n" ++
  "bundle:\n" ++
  "  format: es\n" ++
  "  minify: true\n" ++
  "  silenceWarnings: true\n"

def initialText (p : Path) : String :=
  match dialectOf p with
  | .json => json {}
  | .yaml => initialYaml

end CodeCache.Config
