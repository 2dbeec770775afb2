import PrefixMatch.Json.Number
import PrefixMatch.Json.Text

/-!
# JSON — Reader

From text to a JSON value, strictly: no comments, no trailing commas, only four blank characters, and
nothing after the value.  Arrays and objects nest at most 127 deep.  Of several members with one key the
last one counts.
-/

namespace PrefixMatch.Json

/-- The characters that may stand between tokens. -/
def isBlank (c : Char) : Bool :=
  c == ' ' || c == '\t' || c == '\n' || c == '\r'

/-- The text after the blanks at its start. -/
def skipBlanks (cs : List Char) : List Char :=
  cs.dropWhile isBlank

/-- What follows a fixed word at the start of a text. -/
def afterWord? (word : List Char) (cs : List Char) : Option (List Char) :=
  if word.isPrefixOf cs then some (cs.drop word.length) else none

/-- Items with commas between them up to a closing character, at least one; `fuel` bounds their
number. -/
def separated {α : Type} (item : List Char → Option (α × List Char)) (close : Char) :
    Nat → List Char → Option (List α × List Char)
  | 0, _ => none
  | fuel + 1, cs => do
    let (a, rest) ← item (skipBlanks cs)
    match skipBlanks rest with
    | c :: rest =>
      if c = ',' then
        let (as, rest) ← separated item close fuel rest
        return (a :: as, rest)
      else if c = close then return ([a], rest)
      else failure
    | [] => failure

/-- What stands between an opening and a closing character: nothing, or items. -/
def enclosed {α : Type} (item : List Char → Option (α × List Char)) (close : Char)
    (cs : List Char) : Option (List α × List Char) :=
  match skipBlanks cs with
  | c :: rest => if c = close then some ([], rest) else separated item close (rest.length + 1) (c :: rest)
  | [] => none

/-- A member of an object: a key, a colon and a value. -/
def member (value : List Char → Option (Json × List Char)) (cs : List Char) :
    Option ((String × Json) × List Char) := do
  match cs with
  | '"' :: rest =>
    let (key, rest) ← readText? rest
    match skipBlanks rest with
    | ':' :: rest =>
      let (v, rest) ← value (skipBlanks rest)
      return ((key, v), rest)
    | _ => failure
  | _ => failure

/-- A value that holds no other values. -/
def scalar (cs : List Char) : Option (Json × List Char) :=
  match cs with
  | 'n' :: _ => (afterWord? "null".toList cs).map fun rest => (.null, rest)
  | 't' :: _ => (afterWord? "true".toList cs).map fun rest => (.bool true, rest)
  | 'f' :: _ => (afterWord? "false".toList cs).map fun rest => (.bool false, rest)
  | '"' :: rest => (readText? rest).map fun (s, rest) => (.text s, rest)
  | _ => readNumber? cs

/-- The value at the start of a text, with at most `depth` arrays and objects inside each other. -/
def value : Nat → List Char → Option (Json × List Char)
  | 0, cs => scalar cs
  | depth + 1, cs =>
    match cs with
    | '[' :: rest =>
      (enclosed (value depth) ']' rest).map fun (items, rest) => (.array items, rest)
    | '\x7b' :: rest =>
      (enclosed (member (value depth)) '\x7d' rest).map fun (members, rest) =>
        (.object (members.foldl (fun fields (k, v) => Fields.put k v fields) []), rest)
    | _ => scalar cs

/-- How deep arrays and objects may nest. -/
def maxDepth : Nat := 127

/-- Reads a JSON value that fills the whole text. -/
def read? (cs : List Char) : Option Json := do
  let (v, rest) ← value maxDepth (skipBlanks cs)
  if (skipBlanks rest).isEmpty then return v else failure

end PrefixMatch.Json
