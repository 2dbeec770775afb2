import PrefixMatch.Toml.Text
import PrefixMatch.Toml.Value

/-!
# Toml — Document

The layout of a TOML document: lines that open a section or set a field, arrays over several lines, and
inline tables.  Two readers share this layout; a `Dialect` says how they differ.  `sections? d cs` gives
the sections of a document with their fields in order, and leaves it to the reader which sections may
stand together.
-/

namespace PrefixMatch.Toml

/-- What two readers of TOML may disagree on. -/
structure Dialect where
  /-- Reads a value that is no string, array or inline table. -/
  scalar? : List Char → Option (Value × List Char)
  /-- Whether a character may stand in a comment. -/
  inComment : Char → Bool
  /-- Whether a character may stand in a comment behind a header. -/
  inHeaderComment : Char → Bool
  /-- How many keys a path may have and how deep values may nest; unlimited when absent. -/
  limit : Option Nat

/-- A text without the byte order mark at its start. -/
def dropMark : List Char → List Char
  | '\uFEFF' :: cs => cs
  | cs => cs

/-- A text with each line end of two characters written as a newline. -/
def joinLineEnds : List Char → List Char
  | '\r' :: '\n' :: cs => '\n' :: joinLineEnds cs
  | c :: cs => c :: joinLineEnds cs
  | [] => []

/-- The text after the blanks at its start. -/
def skipSpaces (cs : List Char) : List Char :=
  cs.dropWhile isSpace

/-- Whether a character may stand in a key without quotes. -/
def isBare (c : Char) : Bool :=
  c.isAlphanum || c == '-' || c == '_'

/-- A key, bare or between marks. -/
def key? (cs : List Char) : Option (String × List Char) :=
  match cs.takeWhile isBare with
  | [] => (readShort? cs).map fun (text, rest) => (String.ofList text, rest)
  | bare => some (String.ofList bare, cs.dropWhile isBare)

/-- Keys with dots between them, with the blanks around them; `fuel` bounds their number. -/
def path? : Nat → List Char → Option (List String × List Char)
  | 0, _ => none
  | fuel + 1, cs => do
    let (key, rest) ← key? (skipSpaces cs)
    match skipSpaces rest with
    | '.' :: rest =>
      let (keys, rest) ← path? fuel rest
      return (key :: keys, rest)
    | rest => return ([key], rest)

namespace Dialect

/-- The limit that holds for a text of some length, which no text of that length exceeds when the dialect
has none. -/
def limitFor (d : Dialect) (length : Nat) : Nat :=
  d.limit.getD length

/-- The text after blanks, line ends and comments; the flag says whether it starts inside a comment. -/
def skipLines? (d : Dialect) : Bool → List Char → Option (List Char)
  | _, [] => some []
  | true, c :: cs =>
    if c = '\n' then d.skipLines? false cs
    else if d.inComment c then d.skipLines? true cs
    else none
  | false, c :: cs =>
    if isSpace c || c == '\n' then d.skipLines? false cs
    else if c = '#' then d.skipLines? true cs
    else some (c :: cs)

/-- What follows the rest of a line, which may hold a comment. -/
def endLine? (inComment : Char → Bool) (cs : List Char) : Option (List Char) :=
  let afterComment :=
    match skipSpaces cs with
    | '#' :: rest => rest.dropWhile inComment
    | rest => rest
  match afterComment with
  | [] => some []
  | '\n' :: rest => some rest
  | _ => none

/-- The items of an array after its opening, a comma allowed after the last one; `fuel` bounds their
number. -/
def items? (d : Dialect) (value? : List Char → Option (Value × List Char)) :
    Nat → List Char → Option (List Value × List Char)
  | 0, _ => none
  | fuel + 1, cs => do
    match ← d.skipLines? false cs with
    | ']' :: rest => return ([], rest)
    | cs =>
      let (v, rest) ← value? cs
      match ← d.skipLines? false rest with
      | ',' :: rest =>
        let (vs, rest) ← d.items? value? fuel rest
        return (v :: vs, rest)
      | ']' :: rest => return ([v], rest)
      | _ => failure

/-- A path, an equals sign and a value. -/
def field? (d : Dialect) (value? : List Char → Option (Value × List Char)) (cs : List Char) :
    Option (Field × List Char) := do
  let (path, rest) ← path? (d.limitFor cs.length) cs
  match rest with
  | '=' :: rest =>
    let (v, rest) ← value? (skipSpaces rest)
    return ((path, v), rest)
  | _ => failure

/-- The fields of an inline table, at least one; `fuel` bounds their number. -/
def fields? (d : Dialect) (value? : List Char → Option (Value × List Char)) :
    Nat → List Char → Option (List Field × List Char)
  | 0, _ => none
  | fuel + 1, cs => do
    let (f, rest) ← d.field? value? cs
    match skipSpaces rest with
    | ',' :: rest =>
      let (fs, rest) ← d.fields? value? fuel rest
      return (f :: fs, rest)
    | '\x7d' :: rest => return ([f], rest)
    | _ => failure

/-- An inline table after its opening. -/
def inline? (d : Dialect) (value? : List Char → Option (Value × List Char)) (cs : List Char) :
    Option (Value × List Char) :=
  match skipSpaces cs with
  | '\x7d' :: rest => some (.table [], rest)
  | cs => do
    let (fields, rest) ← d.fields? value? (cs.length + 1) cs
    let table ← Value.table? fields
    return (.table table, rest)

/-- A value that holds no other values. -/
def leaf? (d : Dialect) (cs : List Char) : Option (Value × List Char) :=
  match cs with
  | '"' :: _ | '\'' :: _ => (readText? cs).map fun (s, rest) => (.text (String.ofList s), rest)
  | _ => d.scalar? cs

/-- A value, with at most `depth` arrays and inline tables inside each other. -/
def value? (d : Dialect) : Nat → List Char → Option (Value × List Char)
  | 0, cs => d.leaf? cs
  | depth + 1, cs =>
    match cs with
    | '[' :: rest =>
      (d.items? (d.value? depth) (rest.length + 1) rest).map fun (vs, rest) => (.array vs, rest)
    | '\x7b' :: rest => d.inline? (d.value? depth) rest
    | _ => d.leaf? cs

/-- A line of a document. -/
inductive Line where
  /-- Opens a table. -/
  | table (path : List String)
  /-- Opens one more element of an array of tables. -/
  | element (path : List String)
  | field (f : Field)
  /-- Nothing but a comment. -/
  | blank
  deriving Repr

/-- The line at the start of a text, and the text after it. -/
def line? (d : Dialect) (cs : List Char) : Option (Line × List Char) := do
  let limit := d.limitFor cs.length
  match cs with
  | '[' :: '[' :: rest =>
    let (path, rest) ← path? limit rest
    match rest with
    | ']' :: ']' :: rest => return (.element path, ← endLine? d.inHeaderComment rest)
    | _ => failure
  | '[' :: rest =>
    let (path, rest) ← path? limit rest
    match rest with
    | ']' :: rest => return (.table path, ← endLine? d.inHeaderComment rest)
    | _ => failure
  | '#' :: _ | '\n' :: _ | [] => return (.blank, ← endLine? d.inComment cs)
  | _ =>
    let (f, rest) ← d.field? (d.value? limit) cs
    return (.field f, ← endLine? d.inComment rest)

/-- All lines of a text; `fuel` bounds their number. -/
def lines? (d : Dialect) : Nat → List Char → Option (List Line)
  | 0, _ => none
  | fuel + 1, cs =>
    match skipSpaces cs with
    | [] => some []
    | cs => do
      let (line, rest) ← d.line? cs
      let lines ← d.lines? fuel rest
      return line :: lines

end Dialect

/-- A section: what opened it, and its fields. -/
structure Section where
  /-- The path in the header; the root has the empty path. -/
  path : List String
  /-- Whether the section is an element of an array of tables. -/
  isElement : Bool
  fields : List Field
  deriving Repr

/-- The fields up to the next header, and the sections after them. -/
def groupLines : List Dialect.Line → List Field × List Section
  | [] => ([], [])
  | .blank :: lines => groupLines lines
  | .field f :: lines =>
    let (fields, sections) := groupLines lines
    (f :: fields, sections)
  | .table path :: lines =>
    let (fields, sections) := groupLines lines
    ([], ⟨path, false, fields⟩ :: sections)
  | .element path :: lines =>
    let (fields, sections) := groupLines lines
    ([], ⟨path, true, fields⟩ :: sections)

/-- The sections of a document, the root first. -/
def sections? (d : Dialect) (cs : List Char) : Option (List Section) := do
  let cs := joinLineEnds (dropMark cs)
  let lines ← d.lines? (cs.length + 1) cs
  let (fields, sections) := groupLines lines
  return ⟨[], false, fields⟩ :: sections

end PrefixMatch.Toml
