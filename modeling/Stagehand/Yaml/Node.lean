import Stagehand.Yaml.Token

/-!
# Nodes

A YAML document as a tree of nodes, read from its tokens. Where a node may be left out an empty
plain scalar stands for it.

**Labels.** An anchor gives its node a label: the number of names that are in use before it. A name
that is used again takes over the label of another node in this way, and an alias then stands for
the last node with its label.
-/

namespace Stagehand.Yaml

/-- Nodes of a document. -/
inductive Node where
  | scalar (label : Option Nat) (tag : Option (List Char)) (text : List Char) (style : ScalarStyle)
  | list (label : Option Nat) (items : List Node)
  | map (label : Option Nat) (members : List (Node × Node))
  /-- Stands for the node with a label. -/
  | aliasOf (label : Nat)

namespace Node

/-- The label that the anchor of a node gives it. -/
def label? : Node → Option Nat
  | scalar label _ _ _ | list label _ | map label _ => label
  | aliasOf _ => none

/-! ## Reading -/

/-- Tokens still to be read, and the labels of the names that are in use. -/
structure Reader where
  tokens : List Token
  labels : List (List Char × Nat) := []

/-- Reads something from tokens. -/
abbrev Build := StateT Reader Reading

def next? : Build (Option Token) := do return (← get).tokens.head?

def skip : Build Unit := modify fun r => { r with tokens := r.tokens.drop 1 }

/-- The next token is one of these, or none is left. -/
def atOneOf (ts : List Token) : Build Bool := do
  match ← next? with
  | some t => return ts.contains t
  | none => return true

def passes (t : Token) : Build Bool := do
  if (← next?) == some t then
    skip
    return true
  else return false

/-- Passes the closing token of a flow collection, or the comma in front of an entry that is not the
first. Answers whether the collection is over. -/
def endsFlow (first : Bool) (closing : Token) : Build Bool := do
  if ← passes closing then return true
  else if first then return false
  else if ← passes .flowEntry then return false
  else throw "a comma or the closing sign is missing"

/-- Puts a name into use and gives its label. -/
def newLabel (name : List Char) : Build Nat := do
  let r ← get
  let label := r.labels.length
  set { r with labels := (name, label) :: r.labels.filter (·.1 != name) }
  return label

/-- The label of a name that is in use. -/
def labelOf (name : List Char) : Build Nat := do
  match (← get).labels.lookup name with
  | some label => return label
  | none => throw "an unknown anchor"

/-- The full text of a tag under declared handles. -/
def fullTag (handles : List (List Char × List Char)) (t : Tag) : Reading (List Char) :=
  if t.handle.isEmpty then .ok t.suffix
  else
    match handles.lookup t.handle with
    | some stem => .ok (stem ++ t.suffix)
    | none => .error "an undeclared handle"

def anchor? : Build (Option (List Char)) := do
  match ← next? with
  | some (.anchor name) =>
    skip
    return some name
  | _ => return none

def tag? (handles : List (List Char × List Char)) : Build (Option (List Char)) := do
  match ← next? with
  | some (.tag t) =>
    skip
    return some (← fullTag handles t)
  | _ => return none

/-- Anchor and tag in either order. -/
def properties (handles : List (List Char × List Char)) :
    Build (Option (List Char) × Option (List Char)) := do
  match ← anchor? with
  | some name => return (some name, ← tag? handles)
  | none =>
    let tag ← tag? handles
    return (← if tag.isSome then anchor? else pure none, tag)

/-- What stands for a node that is left out. -/
def absent : Node := scalar none none [] .plain

mutual

/-- Reads a node. Blocks are allowed if `block`, and entries without indentation of their own if
`flush`. -/
def read (handles : List (List Char × List Char)) (block flush : Bool) : Nat → Build Node
  | 0 => throw "a document that is nested too deep"
  | fuel + 1 => do
    match ← next? with
    | some (.aliasOf name) =>
      let label ← labelOf name
      skip
      return .aliasOf label
    | _ =>
      let (name, tag) ← properties handles
      let label? : Build (Option Nat) :=
        match name with
        | some name => some <$> newLabel name
        | none => pure none
      match ← next? with
      | some (.scalar text style) =>
        skip
        return .scalar (← label?) tag text style
      | some .flowSequenceStart =>
        skip
        let label ← label?
        return .list label (← flowItems handles true fuel)
      | some .flowMappingStart =>
        skip
        let label ← label?
        return .map label (← flowMembers handles true fuel)
      | t =>
        if flush && t == some .blockEntry then
          let label ← label?
          return .list label (← flushItems handles fuel)
        else if block && t == some .sequenceStart then
          skip
          let label ← label?
          return .list label (← blockItems handles fuel)
        else if block && t == some .mappingStart then
          skip
          let label ← label?
          return .map label (← blockMembers handles fuel)
        else if name.isSome || tag.isSome then return .scalar (← label?) tag [] .plain
        else throw "a node is missing"

/-- Reads a node unless one of these tokens is next. -/
def readUnless (handles : List (List Char × List Char)) (block flush : Bool) (ends : List Token) :
    Nat → Build Node
  | 0 => throw "a document that is nested too deep"
  | fuel + 1 => do
    match ← next? with
    | some t => if ends.contains t then return absent else read handles block flush fuel
    | none => read handles block flush fuel

def blockItems (handles : List (List Char × List Char)) : Nat → Build (List Node)
  | 0 => throw "a document that is nested too deep"
  | fuel + 1 => do
    if ← passes .blockEntry then
      let item ← readUnless handles true false [.blockEntry, .blockEnd] fuel
      return item :: (← blockItems handles fuel)
    else if ← passes .blockEnd then return []
    else throw "an entry is missing"

/-- Reads entries without indentation of their own. -/
def flushItems (handles : List (List Char × List Char)) : Nat → Build (List Node)
  | 0 => throw "a document that is nested too deep"
  | fuel + 1 => do
    if ← passes .blockEntry then
      let item ← readUnless handles true false [.blockEntry, .key, .value, .blockEnd] fuel
      return item :: (← flushItems handles fuel)
    else return []

def blockMembers (handles : List (List Char × List Char)) : Nat → Build (List (Node × Node))
  | 0 => throw "a document that is nested too deep"
  | fuel + 1 => do
    if ← passes .key then
      let key ← readUnless handles true true [.key, .value, .blockEnd] fuel
      let value ←
        if ← passes .value then readUnless handles true true [.key, .value, .blockEnd] fuel
        else pure absent
      return (key, value) :: (← blockMembers handles fuel)
    else if ← passes .blockEnd then return []
    else throw "a key is missing"

def flowItems (handles : List (List Char × List Char)) (first : Bool) : Nat → Build (List Node)
  | 0 => throw "a document that is nested too deep"
  | fuel + 1 => do
    if ← endsFlow first .flowSequenceEnd then return []
    else if ← passes .key then
      let item ← pair handles fuel
      return item :: (← flowItems handles false fuel)
    else if ← passes .flowSequenceEnd then return []
    else
      let item ← read handles false false fuel
      return item :: (← flowItems handles false fuel)

/-- Reads a mapping of one member inside a flow sequence. A key that is left out takes the token
behind its sign with it. -/
def pair (handles : List (List Char × List Char)) : Nat → Build Node
  | 0 => throw "a document that is nested too deep"
  | fuel + 1 => do
    let key ←
      if ← atOneOf [.value, .flowEntry, .flowSequenceEnd] then
        skip
        pure absent
      else read handles false false fuel
    let value ←
      if ← passes .value then
        readUnless handles false false [.flowEntry, .flowSequenceEnd] fuel
      else pure absent
    return .map none [(key, value)]

def flowMembers (handles : List (List Char × List Char)) (first : Bool) :
    Nat → Build (List (Node × Node))
  | 0 => throw "a document that is nested too deep"
  | fuel + 1 => do
    if ← endsFlow first .flowMappingEnd then return []
    else if ← passes .key then
      let key ← readUnless handles false false [.value, .flowEntry, .flowMappingEnd] fuel
      let value ←
        if ← passes .value then
          readUnless handles false false [.flowEntry, .flowMappingEnd] fuel
        else pure absent
      return (key, value) :: (← flowMembers handles false fuel)
    else if ← passes .flowMappingEnd then return []
    else
      let key ← read handles false false fuel
      return (key, absent) :: (← flowMembers handles false fuel)

end

/-! ## Documents -/

/-- Handles that need no declaration. -/
def standardHandles : List (List Char × List Char) :=
  [("!".toList, "!".toList), ("!!".toList, "tag:yaml.org,2002:".toList)]

/-- Reads directives onto those before them: whether there was a version, and the
declared handles. -/
def readDirectives : List Token → Bool → List (List Char × List Char) →
    Reading (List (List Char × List Char) × List Token)
  | .directive (.version major minor) :: rest, versioned, handles =>
    if versioned then .error "two versions"
    else if major = 1 && (minor = 1 || minor = 2) then readDirectives rest true handles
    else .error "an unsupported version"
  | .directive (.tag handle stem) :: rest, versioned, handles =>
    if (handles.lookup handle).isSome then .error "two declarations of a handle"
    else readDirectives rest versioned (handles ++ [(handle, stem)])
  | rest, _, handles => .ok (handles, rest)

/-- Nothing but marks that end a document is left. -/
def nothingBehind (ts : List Token) : Bool := ts.all (· == .documentEnd)

/-- Reads the content of a document behind its start. -/
def content (handles : List (List Char × List Char)) (ts : List Token) :
    Reading (Node × List Token) :=
  let left := match ts with
    | [] | .documentStart :: _ | .documentEnd :: _ | .directive _ :: _ => true
    | _ => false
  if left then .ok (absent, ts)
  else do
    let (node, r) ← (read handles true false (3 * ts.length + 3)).run { tokens := ts }
    .ok (node, r.tokens)

/-- The root of the only document among tokens; none if there is no document. -/
def ofTokens? (ts : List Token) : Reading (Option Node) := do
  match ts with
  | [] => .ok none
  | .directive _ :: _ | .documentStart :: _ =>
    let (handles, rest) ← readDirectives ts false []
    match rest with
    | .documentStart :: rest =>
      let (node, rest) ← content (handles ++ standardHandles) rest
      if nothingBehind rest then .ok (some node) else .error "more than one document"
    | _ => .error "a document without its start"
  | .documentEnd :: _ => .error "a node is missing"
  | _ =>
    let (node, rest) ← content standardHandles ts
    if nothingBehind rest then .ok (some node) else .error "more than one document"

/-- The root of the only document in a text. -/
def ofText? (text : String) : Reading (Option Node) := do ofTokens? (← Token.ofText text.toList)

/-! ## Aliases -/

mutual

/-- A node with all nodes inside it, in the order in which they start. -/
def all : Node → List Node
  | scalar label tag text style => [scalar label tag text style]
  | list label items => list label items :: allItems items
  | map label members => map label members :: allMembers members
  | aliasOf label => [aliasOf label]

def allItems : List Node → List Node
  | [] => []
  | n :: rest => n.all ++ allItems rest

def allMembers : List (Node × Node) → List Node
  | [] => []
  | (key, value) :: rest => key.all ++ value.all ++ allMembers rest

end

/-- The node that an alias inside `root` stands for; any other node stands for itself. -/
def target (root : Node) : Node → Node
  | aliasOf label => (root.all.reverse.find? fun n => n.label? == some label).getD absent
  | n => n

end Node

end Stagehand.Yaml
