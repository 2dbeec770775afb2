import PrefixMatch.Yaml.Scalar
import PrefixMatch.Yaml.Tag

/-!
# Yaml — Token

The tokens of a YAML text.  Indentation turns into tokens that open and close blocks.  A key before a
colon is known as one only when the colon comes; its place is remembered meanwhile, and the token for the
key is put in there.
-/

namespace PrefixMatch.Yaml

/-- A token. -/
inductive Token where
  | directive
  | documentStart
  | documentEnd
  | streamEnd
  | blockSequenceStart
  | blockMappingStart
  | blockEnd
  | flowSequenceStart
  | flowSequenceEnd
  | flowMappingStart
  | flowMappingEnd
  | blockEntry
  | flowEntry
  | key
  | value
  | alias (name : String)
  | anchor (name : String)
  | tag (t : Tag)
  | scalar (plain : Bool) (text : String)
  deriving DecidableEq, Repr

/-- A place where a key may have started. -/
structure PossibleKey where
  /-- Whether only a key may stand there. -/
  required : Bool
  /-- The number of tokens before it. -/
  number : Nat
  index : Nat
  line : Nat
  column : Nat
  deriving Repr

namespace PossibleKey

/-- Whether a place is too far away for the key to end there: on another line, or more than 1024
characters on. -/
def isStale (k : PossibleKey) (c : Cursor) : Bool :=
  decide (k.line < c.line) || decide (k.index + 1024 < c.index)

end PossibleKey

/-- A text on the way to its tokens. -/
structure Lexer where
  cursor : Cursor
  tokens : List Token := []
  /-- The column of the current block, before the first one −1. -/
  indent : Int := -1
  /-- The columns of the blocks around it, the innermost first. -/
  outer : List Int := []
  /-- The possible key at each level of arrays and tables on one line, the innermost first. -/
  keys : List (Option PossibleKey) := []
  /-- The possible key outside all of them. -/
  blockKey : Option PossibleKey := none
  /-- Whether a key may start here. -/
  keyAllowed : Bool := true
  /-- Where a colon may follow a quoted key directly. -/
  adjacent : Nat := 0

namespace Lexer

/-- Whether the place is inside an array or a table on one line. -/
def inFlow (l : Lexer) : Bool :=
  !l.keys.isEmpty

/-- How deep arrays and tables on one line may nest. -/
def maxFlow : Nat := 255

/-- The possible key at the current level. -/
def possible (l : Lexer) : Option PossibleKey :=
  match l.keys with
  | [] => l.blockKey
  | k :: _ => k

/-- Replaces the possible key at the current level. -/
def setPossible (l : Lexer) (k : Option PossibleKey) : Lexer :=
  match l.keys with
  | [] => { l with blockKey := k }
  | _ :: ks => { l with keys := k :: ks }

/-- Adds a token at the end. -/
def push (l : Lexer) (t : Token) : Lexer :=
  { l with tokens := l.tokens ++ [t] }

/-- Puts a token in after the first `n` ones. -/
def insertAt (l : Lexer) (n : Nat) (t : Token) : Lexer :=
  { l with tokens := l.tokens.take n ++ t :: l.tokens.drop n }

/-- Adds a token of so many characters. -/
def pushSkip (l : Lexer) (t : Token) (n : Nat) : Lexer :=
  { l.push t with cursor := l.cursor.skip n }

/-- Says whether a key may start. -/
def allowKey (l : Lexer) (allowed : Bool) : Lexer :=
  { l with keyAllowed := allowed }

/-- Gives up the possible key at the current level, unless there must be one. -/
def dropKey? (l : Lexer) : Option Lexer :=
  match l.possible with
  | none => some l
  | some k => if k.required then none else some (l.setPossible none)

/-- Remembers the place as one where a key may start. -/
def saveKey? (l : Lexer) : Option Lexer :=
  if l.keyAllowed then
    let c := l.cursor
    let k : PossibleKey :=
      ⟨l.inFlow && l.indent == c.column, l.tokens.length, c.index, c.line, c.column⟩
    (l.dropKey?).map fun l => l.setPossible (some k)
  else some l

/-- A possible key, unless it is stale. -/
def fresh? (c : Cursor) : Option PossibleKey → Option (Option PossibleKey)
  | none => some none
  | some k => if k.isStale c then if k.required then none else some none else some (some k)

/-- Gives up all stale keys. -/
def dropStale? (l : Lexer) : Option Lexer := do
  let blockKey ← fresh? l.cursor l.blockKey
  let keys ← l.keys.mapM (fresh? l.cursor)
  return { l with blockKey, keys }

/-- Opens a block at a column, unless one that far to the right is open; its token goes to a given
number, or to the end. -/
def openBlock (l : Lexer) (column : Nat) (number : Option Nat) (t : Token) : Lexer :=
  if l.inFlow || decide ((column : Int) ≤ l.indent) then l
  else
    let l := { l with outer := l.indent :: l.outer, indent := column }
    match number with
    | none => l.push t
    | some n => l.insertAt n t

/-- How many blocks end at a column, and the columns of those that stay. -/
def closing (column : Int) (indent : Int) : List Int → Nat × Int × List Int
  | [] => (0, indent, [])
  | i :: outer =>
    if column < indent then
      let (n, rest) := closing column i outer
      (n + 1, rest)
    else (0, indent, i :: outer)

/-- Closes all blocks to the right of a column. -/
def closeBlocks (l : Lexer) (column : Int) : Lexer :=
  if l.inFlow then l
  else
    let (n, indent, outer) := closing column l.indent l.outer
    { l with tokens := l.tokens ++ List.replicate n .blockEnd, indent, outer }

/-- Skips blanks, line ends and comments; on a new line a key may start. -/
def skipBetween : Nat → Lexer → Lexer
  | 0, l => l
  | fuel + 1, l =>
    let c := l.cursor
    let x := c.next
    if x = ' ' ∨ (x = '\t' ∧ (l.inFlow || !l.keyAllowed)) then
      skipBetween fuel { l with cursor := c.advance }
    else if isBreak x then
      skipBetween fuel { l with cursor := c.skipBreak, keyAllowed := l.keyAllowed || !l.inFlow }
    else if x = '#' then
      skipBetween fuel { l with cursor := c.skipWhile fun x => !endsLine x }
    else l

/-- Ends the text: all blocks are closed. -/
def finish? (l : Lexer) : Option Lexer := do
  let l ← (l.closeBlocks (-1)).dropKey?
  return (l.allowKey false).push .streamEnd

/-- A directive line. -/
def takeDirective? (l : Lexer) : Option Lexer := do
  let l ← (l.closeBlocks (-1)).dropKey?
  let cursor ← directive? l.cursor
  return { (l.allowKey false).push .directive with cursor }

/-- A mark between documents. -/
def takeDocumentMark? (l : Lexer) (t : Token) : Option Lexer := do
  let l ← (l.closeBlocks (-1)).dropKey?
  return (l.allowKey false).pushSkip t 3

/-- The start of an array or a table on one line. -/
def takeFlowStart? (l : Lexer) (t : Token) : Option Lexer := do
  let l ← l.saveKey?
  if maxFlow ≤ l.keys.length then failure
  return ({ l with keys := none :: l.keys }.allowKey true).pushSkip t 1

/-- The end of an array or a table on one line. -/
def takeFlowEnd? (l : Lexer) (t : Token) : Option Lexer := do
  let l ← l.dropKey?
  return ({ l with keys := l.keys.drop 1 }.allowKey false).pushSkip t 1

/-- A comma. -/
def takeFlowEntry? (l : Lexer) : Option Lexer := do
  let l ← l.dropKey?
  return (l.allowKey true).pushSkip .flowEntry 1

/-- The dash before an item of a block. -/
def takeBlockEntry? (l : Lexer) : Option Lexer := do
  if l.inFlow || !l.keyAllowed then failure
  let l ← (l.openBlock l.cursor.column none .blockSequenceStart).dropKey?
  return (l.allowKey true).pushSkip .blockEntry 1

/-- The question mark before a key. -/
def takeKey? (l : Lexer) : Option Lexer := do
  if !l.inFlow && !l.keyAllowed then failure
  let l ← (l.openBlock l.cursor.column none .blockMappingStart).dropKey?
  return (l.allowKey !l.inFlow).pushSkip .key 1

/-- The colon before a value. -/
def takeValue? (l : Lexer) : Option Lexer :=
  match l.possible with
  | some k =>
    let l := (l.insertAt k.number .key).openBlock k.column (some k.number) .blockMappingStart
    some (((l.setPossible none).allowKey false).pushSkip .value 1)
  | none =>
    if !l.inFlow && !l.keyAllowed then none
    else
      let l := l.openBlock l.cursor.column none .blockMappingStart
      some ((l.allowKey !l.inFlow).pushSkip .value 1)

/-- A name after `*` or `&`. -/
def takeName? (l : Lexer) (token : String → Token) : Option Lexer := do
  let l ← l.saveKey?
  let (name, cursor) := l.cursor.advance.span isNameChar
  if name.isEmpty || !(endsWord cursor.next || "?:,]\x7d%@\x60".toList.contains cursor.next) then
    failure
  return { (l.allowKey false).push (token (String.ofList name)) with cursor }

/-- A tag. -/
def takeTag? (l : Lexer) : Option Lexer := do
  let l ← l.saveKey?
  let (t, cursor) ← tag? l.cursor
  return { (l.allowKey false).push (.tag t) with cursor }

/-- A block of lines. -/
def takeBlock? (l : Lexer) : Option Lexer := do
  let l ← l.saveKey?
  let (text, cursor) ← block? l.indent l.cursor
  return { (l.allowKey true).push (.scalar false (String.ofList text)) with cursor }

/-- A quoted scalar. -/
def takeQuoted? (l : Lexer) : Option Lexer := do
  let l ← l.saveKey?
  let (text, cursor) ← quoted? l.cursor
  return { (l.allowKey false).push (.scalar false (String.ofList text)) with
    cursor, adjacent := cursor.index }

/-- A plain scalar; when it ends on a later line, a key may start there. -/
def takePlain? (l : Lexer) : Option Lexer := do
  let l ← l.saveKey?
  let (text, folded, cursor) ← plain? l.inFlow (l.indent + 1) l.cursor
  return { (l.allowKey folded).push (.scalar true (String.ofList text)) with cursor }

/-- The token at a place that is neither the end nor a line between documents. -/
def takeToken? (l : Lexer) : Option Lexer :=
  let x := l.cursor.next
  let after := l.cursor.peek 1
  if x = '[' then l.takeFlowStart? .flowSequenceStart
  else if x = '\x7b' then l.takeFlowStart? .flowMappingStart
  else if x = ']' then l.takeFlowEnd? .flowSequenceEnd
  else if x = '\x7d' then l.takeFlowEnd? .flowMappingEnd
  else if x = ',' then l.takeFlowEntry?
  else if x = '-' ∧ endsWord after then l.takeBlockEntry?
  else if x = '?' ∧ endsWord after then l.takeKey?
  else if x = ':' ∧ (endsWord after ||
      (l.inFlow && (isFlow after || l.cursor.index == l.adjacent))) then l.takeValue?
  else if x = '*' then l.takeName? .alias
  else if x = '&' then l.takeName? .anchor
  else if x = '!' then l.takeTag?
  else if (x = '|' ∨ x = '>') ∧ !l.inFlow then l.takeBlock?
  else if x = '\'' ∨ x = '"' then l.takeQuoted?
  else if x = '%' ∨ x = '@' ∨ x = '\x60' then none
  else l.takePlain?

/-- The next token, with those that the columns of the text bring; also tells whether the text is at its
end. -/
def step? (l : Lexer) : Option (Lexer × Bool) := do
  let l ← (skipBetween (l.cursor.rest.length + 1) l).dropStale?
  let l := l.closeBlocks l.cursor.column
  let c := l.cursor
  if c.atEnd then return (← l.finish?, true)
  else if c.column = 0 ∧ c.next = '%' then return (← l.takeDirective?, false)
  else if c.atMark '-' then return (← l.takeDocumentMark? .documentStart, false)
  else if c.atMark '.' then return (← l.takeDocumentMark? .documentEnd, false)
  else return (← l.takeToken?, false)

/-- All tokens from a place on; `fuel` bounds the number of steps. -/
def run? : Nat → Lexer → Option (List Token)
  | 0, _ => none
  | fuel + 1, l => do
    let (l, ended) ← l.step?
    if ended then return l.tokens else run? fuel l

end Lexer

/-- The tokens of a text; the last one says that it ends. -/
def tokens? (cs : List Char) : Option (List Token) :=
  let cursor := Cursor.ofText cs
  Lexer.run? (cursor.rest.length + 2) { cursor }

end PrefixMatch.Yaml
