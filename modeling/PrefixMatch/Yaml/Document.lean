import PrefixMatch.Yaml.Node
import PrefixMatch.Yaml.Token

/-!
# Yaml — Document

The documents of a YAML text.  Every reader takes the tokens that are left and gives what it read; names
of nodes are kept for the aliases that follow.  `read? cs` gives the documents, or `none` when the text is
no YAML.
-/

namespace PrefixMatch.Yaml

/-- Tokens that are left, and the names of nodes so far. -/
structure Reading where
  tokens : List Token
  /-- How many nodes had names so far. -/
  count : Nat := 0
  /-- The number of the latest node with a name, for each name. -/
  names : List (String × Nat) := []
  /-- The named nodes that are complete, by number. -/
  nodes : List (Nat × Node) := []

/-- A reader of something. -/
abbrev Reader (α : Type) := StateT Reading Option α

namespace Reader

/-- The next token, which stays. -/
def peek : Reader Token := do
  match (← get).tokens with
  | [] => failure
  | t :: _ => return t

/-- Passes over the next token. -/
def skip : Reader Unit :=
  modify fun r => { r with tokens := r.tokens.drop 1 }

/-- Gives a name to the node that follows; its number tells it from others of that name. -/
def register (name : String) : Reader Nat := do
  let r ← get
  set { r with count := r.count + 1, names := (name, r.count) :: r.names }
  return r.count

/-- Keeps a complete node under its number, if it has one. -/
def keep (number : Option Nat) (n : Node) : Reader Node := do
  match number with
  | none => return n
  | some i =>
    modify fun r => { r with nodes := (i, n) :: r.nodes }
    return n

/-- The node that an alias stands for; a node that is not complete yet stands for no value. -/
def resolve (name : String) : Reader Node := do
  let r ← get
  match r.names.find? fun e => e.1 == name with
  | none => failure
  | some (_, i) =>
    match r.nodes.find? fun e => e.1 == i with
    | none => return .invalid
    | some (_, n) => return n

/-- The name and the tag before a node, in either order. -/
def properties : Reader (Option Nat × Option Tag) := do
  match ← peek with
  | .anchor name =>
    skip
    let number ← register name
    match ← peek with
    | .tag t =>
      skip
      return (some number, some t)
    | _ => return (some number, none)
  | .tag t =>
    skip
    match ← peek with
    | .anchor name =>
      skip
      let number ← register name
      return (some number, some t)
    | _ => return (none, some t)
  | _ => return (none, none)

/-- A node, or nothing where one of some tokens follows. -/
def orNull (ends : List Token) (node : Reader Node) : Reader Node := do
  if ends.contains (← peek) then return .null else node

/-- A node that is not there: an empty scalar after a name or a tag, and otherwise an error. -/
def missing (number : Option Nat) (t : Option Tag) : Reader Node :=
  if number.isSome || t.isSome then keep number (Node.ofScalar true t "") else failure

mutual

/-- A node.  Blocks are read only where `block` says so, and items without a block of their own only where
`bare` does. -/
def node : Nat → Bool → Bool → Reader Node
  | 0, _, _ => failure
  | fuel + 1, block, bare => do
    match ← peek with
    | .alias name =>
      skip
      resolve name
    | _ =>
      let (number, t) ← properties
      match ← peek with
      | .scalar plain s =>
        skip
        keep number (Node.ofScalar plain t s)
      | .flowSequenceStart =>
        skip
        let items ← flowItems fuel true
        keep number (.array items)
      | .flowMappingStart =>
        skip
        let nodes ← flowEntries fuel true
        keep number (Node.ofPairs nodes)
      | .blockEntry =>
        if bare then
          let items ← bareItems fuel
          keep number (.array items)
        else missing number t
      | .blockSequenceStart =>
        if block then
          skip
          let items ← blockItems fuel
          keep number (.array items)
        else missing number t
      | .blockMappingStart =>
        if block then
          skip
          let nodes ← blockEntries fuel
          keep number (Node.ofPairs nodes)
        else missing number t
      | _ => missing number t

/-- The items of a block. -/
def blockItems : Nat → Reader (List Node)
  | 0 => failure
  | fuel + 1 => do
    match ← peek with
    | .blockEnd =>
      skip
      return []
    | .blockEntry =>
      skip
      let item ← orNull [.blockEntry, .blockEnd] (node fuel true false)
      return item :: (← blockItems fuel)
    | _ => failure

/-- Items that stand at the column of the key above them. -/
def bareItems : Nat → Reader (List Node)
  | 0 => failure
  | fuel + 1 => do
    match ← peek with
    | .blockEntry =>
      skip
      let item ← orNull [.blockEntry, .key, .value, .blockEnd] (node fuel true false)
      return item :: (← bareItems fuel)
    | _ => return []

/-- The keys and values of a block in turn. -/
def blockEntries : Nat → Reader (List Node)
  | 0 => failure
  | fuel + 1 => do
    let node := orNull [.key, .value, .blockEnd] (node fuel true true)
    match ← peek with
    | .blockEnd =>
      skip
      return []
    | .key =>
      skip
      let k ← node
      let v ← if (← peek) = .value then do skip; node else pure .null
      return k :: v :: (← blockEntries fuel)
    | .value =>
      skip
      let v ← node
      return .null :: v :: (← blockEntries fuel)
    | _ => failure

/-- The keys and values of a table on one line in turn. -/
def flowEntries : Nat → Bool → Reader (List Node)
  | 0, _ => failure
  | fuel + 1, first => do
    if (← peek) = .flowMappingEnd then
      skip
      return []
    if !first then
      if (← peek) = .flowEntry then skip else failure
    let value : Reader Node := do
      if (← peek) = .value then
        skip
        orNull [.flowEntry, .flowMappingEnd] (node fuel false false)
      else return .null
    match ← peek with
    | .flowMappingEnd =>
      skip
      return []
    | .key =>
      skip
      let k ← orNull [.value, .flowEntry, .flowMappingEnd] (node fuel false false)
      let v ← value
      return k :: v :: (← flowEntries fuel false)
    | .value =>
      let v ← value
      return .null :: v :: (← flowEntries fuel false)
    | _ =>
      let k ← node fuel false false
      return k :: .null :: (← flowEntries fuel false)

/-- The items of an array on one line. -/
def flowItems : Nat → Bool → Reader (List Node)
  | 0, _ => failure
  | fuel + 1, first => do
    if (← peek) = .flowSequenceEnd then
      skip
      return []
    if !first then
      if (← peek) = .flowEntry then skip else failure
    match ← peek with
    | .flowSequenceEnd =>
      skip
      return []
    | .key =>
      skip
      let item ← flowPair fuel
      return item :: (← flowItems fuel false)
    | _ =>
      let item ← node fuel false false
      return item :: (← flowItems fuel false)

/-- A table of one entry as an item of an array on one line.  Where its key is missing, the token in place
of the key is lost. -/
def flowPair : Nat → Reader Node
  | 0 => failure
  | fuel + 1 => do
    let k ←
      if [Token.value, .flowEntry, .flowSequenceEnd].contains (← peek) then do
        skip
        pure Node.null
      else node fuel false false
    let v ←
      if (← peek) = .value then do
        skip
        orNull [.flowEntry, .flowSequenceEnd] (node fuel false false)
      else pure .null
    return Node.ofPairs [k, v]

end

/-- Passes over tokens of one kind. -/
def skipAll (t : Token) : Reader Unit :=
  modify fun r => { r with tokens := r.tokens.dropWhile (· == t) }

/-- The content of a document after its mark. -/
def content (fuel : Nat) : Reader Node :=
  orNull [.directive, .documentStart, .documentEnd, .streamEnd] (node fuel true false)

/-- A document that starts with a mark. -/
def markedDocument (fuel : Nat) : Reader Node := do
  skipAll .directive
  if (← peek) = .documentStart then
    skip
    content fuel
  else failure

/-- Ends a document and forgets its names. -/
def endDocument : Reader Unit := do
  if (← peek) = .documentEnd then skip
  modify fun r => { r with names := [] }

/-- The documents after the first one; `fuel` bounds their number and depth. -/
def moreDocuments : Nat → Reader (List Node)
  | 0 => failure
  | fuel + 1 => do
    skipAll .documentEnd
    if (← peek) = .streamEnd then return []
    let d ← markedDocument fuel
    endDocument
    return d :: (← moreDocuments fuel)

/-- All documents; the first one needs no mark. -/
def documents (fuel : Nat) : Reader (List Node) := do
  match ← peek with
  | .streamEnd => return []
  | t =>
    let d ←
      if t = .directive ∨ t = .documentStart then markedDocument fuel else node fuel true false
    endDocument
    return d :: (← moreDocuments fuel)

end Reader

/-- The documents of a text. -/
def read? (cs : List Char) : Option (List Node) := do
  let tokens ← tokens? cs
  let (documents, _) ← (Reader.documents (3 * tokens.length + 3)).run { tokens }
  return documents

end PrefixMatch.Yaml
