import CodeCache.Value
import CodeCache.Yaml.Scanner

/-! # Nodes

A YAML text holds at most one document, whose root is a node: a scalar, a list, a table or a
reference to an anchor. Anything but a reference can have an anchor and a tag, and a scalar of which
nothing else is written is empty. Keys can be nodes of any kind. Productions that nest take a bound
on their depth, which the number of tokens exceeds. -/

namespace CodeCache.Yaml

structure Properties where
  anchor : Option Nat := none
  tag : Option Bytes := none
deriving DecidableEq, Repr

inductive Node where
  | reference (id : Nat)
  | scalar (properties : Properties) (style : Style) (text : String)
  | list (properties : Properties) (items : List Node)
  | table (properties : Properties) (entries : List (Node × Node))
deriving Repr, Inhabited

/-- Where a node stands: in brackets, in a block list or at the root, or as a part of a block table,
where a list may stand at the column of the table itself. -/
inductive Position where
  | flow
  | block
  | entry
deriving DecidableEq, Repr

namespace Properties

/-- The exclamation mark alone says nothing about a scalar. -/
def ofScalar (p : Properties) : Properties :=
  if p.tag = some (Text.Utf8.encode "!") then { p with tag := none } else p

def blank? (p : Properties) (tokens : List Token) : Option (Node × List Token) :=
  if p.anchor.isSome ∨ p.tag.isSome then some (.scalar p .plain "", tokens) else none

end Properties

namespace Node

def empty : Node := .scalar {} .plain ""

def builtinHandles : Entries Bytes := [
  ("!", Text.Utf8.encode "!"),
  ("!!", Text.Utf8.encode "tag:yaml.org,2002:")]

/-- What the directives before a document say of its handles. There may be one version, and a handle
may not be given twice. -/
def directives? (versioned : Bool) (handles : Entries Bytes) :
    List Token → Option (Entries Bytes × List Token)
  | .directive (.version major minor) :: rest =>
    if !versioned ∧ major = 1 ∧ (minor = 1 ∨ minor = 2) then directives? true handles rest else none
  | .directive (.handle name expansion) :: rest =>
    if Entries.contains handles name then none
    else directives? versioned (handles ++ [(name, expansion)]) rest
  | rest => some (handles ++ builtinHandles, rest)

def expand? (handles : Entries Bytes) (name : TagName) : Option Bytes :=
  match name.handle with
  | none => some name.suffix
  | some handle => (Entries.get? handles handle).map (· ++ name.suffix)

def properties? (handles : Entries Bytes) : List Token → Option (Properties × List Token)
  | .anchor id :: .tag name :: rest
  | .tag name :: .anchor id :: rest => do return (⟨some id, some (← expand? handles name)⟩, rest)
  | .anchor id :: rest => some (⟨some id, none⟩, rest)
  | .tag name :: rest => do return (⟨none, some (← expand? handles name)⟩, rest)
  | rest => some ({}, rest)

mutual
def nodeWithin (handles : Entries Bytes) :
    (depth : Nat) → Position → List Token → Option (Node × List Token)
  | 0, _, _ => none
  | _ + 1, _, .reference id :: rest => some (.reference id, rest)
  | depth + 1, position, tokens => do
    let (p, tokens) ← properties? handles tokens
    match tokens with
    | .scalar style text :: rest => some (.scalar p.ofScalar style text, rest)
    | .flowListStart :: rest => (flowItems handles depth rest).map fun r => (.list p r.1, r.2)
    | .flowTableStart :: rest => (flowEntries handles depth rest).map fun r => (.table p r.1, r.2)
    | .blockItem :: _ =>
      if position ≠ .entry then p.blank? tokens
      else (alignedItems handles depth tokens).map fun r => (.list p r.1, r.2)
    | .blockListStart :: rest =>
      if position = .flow then p.blank? tokens
      else (blockItems handles depth rest).map fun r => (.list p r.1, r.2)
    | .blockTableStart :: rest =>
      if position = .flow then p.blank? tokens
      else (blockEntries handles depth rest).map fun r => (.table p r.1, r.2)
    | tokens => p.blank? tokens
def nodeUnless (handles : Entries Bytes) :
    (depth : Nat) → List Token → Position → List Token → Option (Node × List Token)
  | 0, _, _, _ => none
  | depth + 1, stops, position, tokens =>
    if tokens.head?.any (· ∈ stops) then some (empty, tokens)
    else nodeWithin handles depth position tokens
def valueUnless (handles : Entries Bytes) :
    (depth : Nat) → List Token → Position → List Token → Option (Node × List Token)
  | 0, _, _, _ => none
  | depth + 1, stops, position, .value :: rest => nodeUnless handles depth stops position rest
  | _ + 1, _, _, tokens => some (empty, tokens)
def blockItems (handles : Entries Bytes) :
    (depth : Nat) → List Token → Option (List Node × List Token)
  | depth + 1, .blockItem :: rest => do
    let (item, rest) ← nodeUnless handles depth [.blockItem, .blockEnd] .block rest
    let (items, rest) ← blockItems handles depth rest
    return (item :: items, rest)
  | _ + 1, .blockEnd :: rest => some ([], rest)
  | _, _ => none
/-- Items at the column of the table that the list is a part of. -/
def alignedItems (handles : Entries Bytes) :
    (depth : Nat) → List Token → Option (List Node × List Token)
  | 0, _ => none
  | depth + 1, .blockItem :: rest => do
    let (item, rest) ← nodeUnless handles depth [.blockItem, .key, .value, .blockEnd] .block rest
    let (items, rest) ← alignedItems handles depth rest
    return (item :: items, rest)
  | _ + 1, tokens => some ([], tokens)
def blockEntries (handles : Entries Bytes) :
    (depth : Nat) → List Token → Option (List (Node × Node) × List Token)
  | depth + 1, .key :: rest => do
    let stops := [.key, .value, .blockEnd]
    let (key, rest) ← nodeUnless handles depth stops .entry rest
    let (value, rest) ← valueUnless handles depth stops .entry rest
    let (entries, rest) ← blockEntries handles depth rest
    return ((key, value) :: entries, rest)
  | _ + 1, .blockEnd :: rest => some ([], rest)
  | _, _ => none
/-- An item in brackets, which may be a single entry. After a question mark the sign where the key
should stand counts as the key. -/
def flowItem (handles : Entries Bytes) : (depth : Nat) → List Token → Option (Node × List Token)
  | 0, _ => none
  | depth + 1, .key :: rest => do
    let stops := [.separator, .flowListEnd]
    let (key, rest) ←
      if rest.head?.any (· ∈ .value :: stops) then some (empty, rest.tail)
      else nodeWithin handles depth .flow rest
    let (value, rest) ← valueUnless handles depth stops .flow rest
    return (.table {} [(key, value)], rest)
  | depth + 1, tokens => nodeWithin handles depth .flow tokens
def flowItems (handles : Entries Bytes) :
    (depth : Nat) → List Token → Option (List Node × List Token)
  | 0, _ => none
  | _ + 1, .flowListEnd :: rest => some ([], rest)
  | depth + 1, tokens => do
    let (item, rest) ← flowItem handles depth tokens
    match rest with
    | .separator :: rest =>
      let (items, rest) ← flowItems handles depth rest
      return (item :: items, rest)
    | .flowListEnd :: rest => some ([item], rest)
    | _ => none
/-- An entry in braces. One without a mark for its key has no value. -/
def flowEntry (handles : Entries Bytes) :
    (depth : Nat) → List Token → Option ((Node × Node) × List Token)
  | 0, _ => none
  | depth + 1, .key :: rest => do
    let stops := [.separator, .flowTableEnd]
    let (key, rest) ← nodeUnless handles depth (.value :: stops) .flow rest
    let (value, rest) ← valueUnless handles depth stops .flow rest
    return ((key, value), rest)
  | depth + 1, tokens => (nodeWithin handles depth .flow tokens).map fun r => ((r.1, empty), r.2)
def flowEntries (handles : Entries Bytes) :
    (depth : Nat) → List Token → Option (List (Node × Node) × List Token)
  | 0, _ => none
  | _ + 1, .flowTableEnd :: rest => some ([], rest)
  | depth + 1, tokens => do
    let (entry, rest) ← flowEntry handles depth tokens
    match rest with
    | .separator :: rest =>
      let (entries, rest) ← flowEntries handles depth rest
      return (entry :: entries, rest)
    | .flowTableEnd :: rest => some ([entry], rest)
    | _ => none
end

/-- The root of a document and the tokens after it. Directives need a mark where the document
starts, and after a mark the document may be empty. -/
def root? (tokens : List Token) : Option (Node × List Token) := do
  let (handles, rest) ← directives? false [] tokens
  let depth := 5 * rest.length + 5
  match rest with
  | [] => if tokens = [] then some (empty, []) else none
  | .documentStart :: rest =>
    if rest.head?.all (· = .documentEnd) then some (empty, rest)
    else nodeWithin handles depth .block rest
  | rest => if rest.length < tokens.length then none else nodeWithin handles depth .block rest

def ofTokens? (tokens : List Token) : Option Node := do
  let (node, rest) ← root? tokens
  if rest.all (· = .documentEnd) then some node else none

mutual
/-- The numbers of nodes, a later node before an earlier one. -/
def anchoredFrom (found : List (Nat × Node)) : Node → List (Nat × Node)
  | reference _ => found
  | scalar p style text => p.anchor.toList.map (·, scalar p style text) ++ found
  | list p items => anchoredItems (p.anchor.toList.map (·, list p items) ++ found) items
  | table p entries => anchoredEntries (p.anchor.toList.map (·, table p entries) ++ found) entries
def anchoredItems (found : List (Nat × Node)) : List Node → List (Nat × Node)
  | [] => found
  | item :: items => anchoredItems (anchoredFrom found item) items
def anchoredEntries (found : List (Nat × Node)) : List (Node × Node) → List (Nat × Node)
  | [] => found
  | (key, value) :: entries =>
    anchoredEntries (anchoredFrom (anchoredFrom found key) value) entries
end

def anchored (n : Node) : List (Nat × Node) := anchoredFrom [] n

mutual
/-- A collection counts once where it begins and once where it ends. -/
def size : Node → Nat
  | reference _ => 1
  | scalar _ _ _ => 1
  | list _ items => sizeItems items + 2
  | table _ entries => sizeEntries entries + 2
def sizeItems : List Node → Nat
  | [] => 0
  | item :: items => size item + sizeItems items
def sizeEntries : List (Node × Node) → Nat
  | [] => 0
  | (key, value) :: entries => size key + size value + sizeEntries entries
end

end Node

end CodeCache.Yaml
