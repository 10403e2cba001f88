import CodeCache.Bytes
import CodeCache.Config.File
import CodeCache.Error
import CodeCache.Header
import CodeCache.Number
import CodeCache.Storage
import CodeCache.Value

/-! # The command line

Options are written `--name value` or `--name=value`, and those with a letter also `-n value`,
`-nvalue` or `-n=value`. A switch is an option without a value. No option may be given twice. A
value of its own does not begin with a dash, unless it is nothing else. After `--` there are no
options. A file name must not be empty.

A command reads files, writes at most one as its last step and prints only when it has done what it
should. Its exit status is zero then, one when it fails and two when the arguments denote no
command. A failure is reported by a message and, below it, the causes behind it, numbered if there
are several of them.

The texts on usage are left out. For `help`, `--help`, `-h`, `--version` and `-V` the program prints
such a text and exits with zero, whereas here they denote no command and lead to status two; no file
is touched in either case. -/

namespace CodeCache.CommandLine

structure Known where
  name : String
  letter : Option Char := none
  isSwitch : Bool := false
deriving DecidableEq, Repr

/-- Options by name; a switch has an empty value. -/
structure Arguments where
  options : Entries String := []
  operands : List String := []
deriving Repr

namespace Arguments

def give? (a : Arguments) (name value : String) : Option Arguments :=
  if a.options.contains name then none else some { a with options := a.options.insert name value }

def looksLikeOption (text : String) : Bool := text.toList.head? = some '-' && text ≠ "-"

def attachedValue (text : List Char) : Option String :=
  match text.dropWhile (· ≠ '=') with
  | [] => none
  | _ :: value => some (String.ofList value)

def letterValue : List Char → Option String
  | [] => none
  | '=' :: value => some (String.ofList value)
  | value => some (String.ofList value)

/-- The option that an argument names, and the value that stands in it. -/
def option? (known : List Known) (text : List Char) : Option (Known × Option String) :=
  match text with
  | '-' :: '-' :: long =>
    let name := String.ofList (long.takeWhile (· ≠ '='))
    (known.find? (·.name = name)).map (·, attachedValue long)
  | '-' :: letter :: rest => (known.find? (·.letter = some letter)).map (·, letterValue rest)
  | _ => none

def readFrom? (known : List Known) (a : Arguments) : List String → Option Arguments
  | [] => some a
  | text :: rest =>
    if text = "--" then some { a with operands := a.operands ++ rest }
    else if !looksLikeOption text then
      readFrom? known { a with operands := a.operands ++ [text] } rest
    else
      match option? known text.toList with
      | none => none
      | some (o, some value) =>
        if o.isSwitch then none else (a.give? o.name value).bind (readFrom? known · rest)
      | some (o, none) =>
        if o.isSwitch then (a.give? o.name "").bind (readFrom? known · rest)
        else
          match rest with
          | [] => none
          | value :: rest =>
            if looksLikeOption value then none
            else (a.give? o.name value).bind (readFrom? known · rest)

def read? (known : List Known) (texts : List String) : Option Arguments := readFrom? known {} texts

def option (a : Arguments) (name : String) : Option String := Entries.get? a.options name

def switch (a : Arguments) (name : String) : Bool := a.options.contains name

end Arguments

/-- Without an output the blob itself is patched. -/
inductive Command where
  | inspect (blob : Path) (json : Bool)
  | patch (blob reference : Path) (engineVersion : String) (output project : Option Path)
  | recipe (engineVersion : String) (project : Option Path) (json : Bool)
  | config (project : Option Path) (overrides : Overrides)
  | init (file : Path)
deriving DecidableEq, Repr

namespace Command

def path? (text : String) : Option Path := if text = "" then none else some ⟨text⟩

def optionalPath? : Option String → Option (Option Path)
  | none => some none
  | some text => (path? text).map some

def word? (text : String) : Option UInt32 :=
  match text.toList with
  | '+' :: digits => Number.readUInt32? digits
  | '-' :: digits => (Number.readNat? digits).bind fun n => if n = 0 then some 0 else none
  | digits => Number.readUInt32? digits

def optionalWord? : Option String → Option (Option UInt32)
  | none => some none
  | some text => (word? text).map some

def json : Known := { name := "json", isSwitch := true }

def project : Known := { name := "project", letter := some 'p' }

def engineVersion : Known := { name := "engine-version" }

def readInspect? (texts : List String) : Option Command := do
  let a ← Arguments.read? [json] texts
  match a.operands with
  | [blob] => return .inspect (← path? blob) (a.switch "json")
  | _ => none

def readPatch? (texts : List String) : Option Command := do
  let a ← Arguments.read?
    [{ name := "reference" }, engineVersion, { name := "output", letter := some 'o' }, project]
    texts
  match a.operands with
  | [blob] =>
    return .patch (← path? blob) (← path? (← a.option "reference")) (← a.option "engine-version")
      (← optionalPath? (a.option "output")) (← optionalPath? (a.option "project"))
  | _ => none

def readRecipe? (texts : List String) : Option Command := do
  let a ← Arguments.read? [engineVersion, project, json] texts
  if a.operands = [] then
    return .recipe (← a.option "engine-version") (← optionalPath? (a.option "project"))
      (a.switch "json")
  else none

def readConfig? (texts : List String) : Option Command := do
  let a ← Arguments.read?
    [project, { name := "bytecode-extension" }, { name := "flush-bytecode-min-major" },
      { name := "root-dir" }, { name := "no-minify", isSwitch := true }] texts
  if a.operands = [] then
    let overrides : Overrides := {
      bytecodeExtension := a.option "bytecode-extension"
      flushBytecodeMinMajor := ← optionalWord? (a.option "flush-bytecode-min-major")
      rootDir := a.option "root-dir"
      minify := if a.switch "no-minify" then some false else none }
    return .config (← optionalPath? (a.option "project")) overrides
  else none

def initialFile : String := "bytecache.yaml"

def readInit? (texts : List String) : Option Command := do
  let a ← Arguments.read? [] texts
  match a.operands with
  | [] => return .init ⟨initialFile⟩
  | [file] => return .init (← path? file)
  | _ => none

/-- The command that an argument list denotes. -/
def read? : List String → Option Command
  | "inspect" :: rest => readInspect? rest
  | "patch" :: rest => readPatch? rest
  | "recipe" :: rest => readRecipe? rest
  | "config" :: rest => readConfig? rest
  | "init" :: rest => readInit? rest
  | _ => none

end Command

inductive Failure where
  | configUnreadable (file : Path) (e : LoadError)
  | badVersion (text : String)
  | unreadable (file : Path) (e : StorageError)
  | notABlob (file : Path) (e : HeaderError)
  | noRecipe (v : Version)
  | unwritable (file : Path) (e : StorageError)
  | alreadyExists (file : Path)
  | notCreated (file : Path) (e : StorageError)
deriving DecidableEq, Repr

namespace Failure

def message : Failure → String
  | configUnreadable file _ => s!"Failed to load config file {file.text}"
  | badVersion text => (LoadError.version text).message
  | unreadable file _ => s!"Failed to read {file.text}"
  | notABlob file _ => s!"{file.text} is not a bytecode blob"
  | noRecipe v => s!"No patch recipe matches engine version {v.text}"
  | unwritable file _ => s!"Failed to write {file.text}"
  | alreadyExists file => s!"{file.text} already exists"
  | notCreated file _ => s!"Failed to write {file.text}"

def causesOf (e : LoadError) : List String :=
  match e with
  | .storage inner => [e.message, inner.message]
  | _ => [e.message]

def causes : Failure → List String
  | configUnreadable _ e => causesOf e
  | unreadable _ e => [e.message]
  | notABlob _ e => [e.message]
  | unwritable _ e => [e.message]
  | notCreated _ e => causesOf (.storage e)
  | _ => []

def numbered (n : Nat) : List String → List String
  | [] => []
  | text :: rest => s!"    {n}: {text}" :: numbered (n + 1) rest

def causeLines : List String → List String
  | [] => []
  | [text] => ["", "Caused by:", s!"    {text}"]
  | texts => "" :: "Caused by:" :: numbered 0 texts

def report (f : Failure) : String :=
  "\n".intercalate (s!"Error: {f.message}" :: causeLines f.causes)

end Failure

structure Outcome where
  exitStatus : UInt32
  output : String := ""
  errors : String := ""
deriving DecidableEq, Repr

section

variable {m : Type → Type} [Monad m]

def need {ε α : Type} (wrap : ε → Failure) : Except ε α → ExceptT Failure m α
  | .ok a => pure a
  | .error e => throw (wrap e)

def version (text : String) : ExceptT Failure m Version :=
  match Version.parse? text with
  | some v => pure v
  | none => throw (.badVersion text)

/-- The files that are tried when no project file is named. -/
def projectFiles : List Path := [⟨"bytecache.yaml"⟩, ⟨"bytecache.yml"⟩, ⟨"bytecache.json"⟩]

def firstPresent (a : Access m) : List Path → m (Option Path)
  | [] => pure none
  | p :: ps => do if ← a.isPresent p then pure (some p) else firstPresent a ps

def loadConfig (a : Access m) (project : Option Path) : ExceptT Failure m Config := do
  let file ← match project with
    | some p => pure (some p)
    | none => liftM (firstPresent a projectFiles)
  match file with
  | none => return {}
  | some p => need (.configUnreadable p) (Config.ofFile p (← a.read p))

def readBlob (a : Access m) (p : Path) : ExceptT Failure m Bytes := do
  need (.unreadable p) (← a.read p)

def padded (n : Nat) : String := if n < 10 then s!" {n}" else s!"{n}"

def hex8 (w : UInt32) : String :=
  let digits := Nat.toDigits 16 w.toNat
  "0x" ++ String.ofList (List.replicate (8 - digits.length) '0' ++ digits)

def wordLines (offset : Nat) : List UInt32 → List String
  | [] => []
  | w :: ws =>
    s!"  [{padded offset}..{padded (offset + 4)}) {hex8 w}" :: wordLines (offset + 4) ws

def unlines (lines : List String) : String := String.join (lines.map (· ++ "\n"))

def summaryText (p : Path) (s : Header.Summary) (digest : String) : String :=
  unlines <| [
    s!"file:            {p.text}",
    s!"size:            {s.blobSize} bytes",
    s!"source length:   {s.sourceLength.toNat}",
    s!"module:          {s.isModule}",
    s!"placeholder len: {s.placeholderLength.toNat}",
    s!"blake3:          {digest}"] ++ wordLines 0 s.words

def summaryJson (s : Header.Summary) (digest : String) : String :=
  Json.pretty (.object [
    ("blobLen", .int s.blobSize),
    ("sourceLength", .int s.sourceLength.toNat),
    ("isModule", .bool s.isModule),
    ("words", .array (s.words.map fun w => .int w.toNat)),
    ("placeholderLen", .int s.placeholderLength.toNat),
    ("blake3", .str digest)]) ++ "\n"

def inspect (a : Access m) (p : Path) (json : Bool) : ExceptT Failure m String := do
  let blob ← readBlob a p
  let summary ← need (.notABlob p) (Header.Summary.read blob)
  let digest := Bytes.hex (Digest.hash blob)
  return if json then summaryJson summary digest else summaryText p summary digest

def patch (a : Access m) (p referencePath : Path) (engineVersion : String)
    (output project : Option Path) : ExceptT Failure m String := do
  let config ← loadConfig a project
  let v ← version engineVersion
  let blob ← readBlob a p
  let reference ← readBlob a referencePath
  match config.table.patch v blob reference with
  | (none, _) => throw (.noRecipe v)
  | (some recipe, blob) =>
    let output := output.getD p
    need (.unwritable output) (← a.write output blob)
    return s!"Patched {output.text} using recipe '{recipe.name}'\n"

def rangeLine (r : Patch.Range) : String := s!"  [{r.start.toNat}, {r.stop.toNat})"

def recipeText (v : Version) : Option Patch.Recipe → String
  | some r => unlines (s!"{v.text} -> {r.name}" :: r.ranges.map rangeLine)
  | none => s!"{v.text} -> no recipe (blob left unpatched)\n"

def recipe (a : Access m) (engineVersion : String) (project : Option Path) (json : Bool) :
    ExceptT Failure m String := do
  let config ← loadConfig a project
  let v ← version engineVersion
  let selected := config.table.select v
  return if json then Json.pretty (.ofOption Patch.Recipe.toValue selected) ++ "\n"
    else recipeText v selected

def showConfig (a : Access m) (project : Option Path) (overrides : Overrides) :
    ExceptT Failure m String := do
  let config ← loadConfig a project
  return (config.merge overrides).json ++ "\n"

def initConfig (a : Access m) (p : Path) : ExceptT Failure m String := do
  if ← a.isPresent p then throw (.alreadyExists p)
  need (.notCreated p) (← a.write p (Text.Utf8.encode (Config.initialText p)))
  return s!"Created {p.text}\n"

def Command.perform (a : Access m) : Command → ExceptT Failure m String
  | inspect blob json => CommandLine.inspect a blob json
  | patch blob reference engineVersion output project =>
    CommandLine.patch a blob reference engineVersion output project
  | recipe engineVersion project json => CommandLine.recipe a engineVersion project json
  | config project overrides => showConfig a project overrides
  | init file => initConfig a file

/-- Runs the program. Arguments that ask for a text on usage are refused like any other arguments
that denote no command. -/
def run (a : Access m) (args : List String) : m Outcome := do
  match Command.read? args with
  | none => return { exitStatus := 2, errors := "error: no such command\n" }
  | some command =>
    match ← (command.perform a).run with
    | .ok output => return { exitStatus := 0, output }
    | .error failure => return { exitStatus := 1, errors := failure.report ++ "\n" }

end

end CodeCache.CommandLine
