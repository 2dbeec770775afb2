import PrefixMatch.Text.Hex

/-!
# Toml — Text

The strings of a TOML document.  A string stands between quotes, where a backslash starts an escape, or
between apostrophes, where every character stands for itself.  Three opening marks make a long string,
which may run over several lines.  All texts here have their line ends written as single newlines.
-/

namespace PrefixMatch.Toml

/-- Blanks within a line. -/
def isSpace (c : Char) : Bool :=
  c == ' ' || c == '\t'

/-- Whether a character may stand in a string as itself. -/
def isPlain (c : Char) : Bool :=
  c == '\t' || (decide (0x20 ≤ c.toNat) && c.toNat != 0x7F)

/-- The character that a letter after a backslash stands for. -/
def escaped? : Char → Option Char
  | '"' => some '"'
  | '\\' => some '\\'
  | 'b' => some '\x08'
  | 'f' => some '\x0c'
  | 'n' => some '\n'
  | 'r' => some '\r'
  | 't' => some '\t'
  | _ => none

/-- The character given by hexadecimal digits, and what follows them. -/
def numbered? (digits : Nat) (cs : List Char) : Option (Char × List Char) := do
  let (n, rest) ← Text.takeHex? digits cs
  let c ← Text.charOfNat? n
  return (c, rest)

/-- The escape after a backslash, and what follows it. -/
def escape? : List Char → Option (Char × List Char)
  | 'u' :: cs => numbered? 4 cs
  | 'U' :: cs => numbered? 8 cs
  | c :: cs => (escaped? c).map (·, cs)
  | [] => none

/-- What follows a backslash at the end of a line: all blanks and line ends after it are skipped. -/
def continued? (cs : List Char) : Option (List Char) :=
  match cs.dropWhile isSpace with
  | '\n' :: rest => some (rest.dropWhile fun c => isSpace c || c == '\n')
  | _ => none

/-- The characters of a string on one line up to its closing mark; `fuel` bounds their number. -/
def short? (mark : Char) : Nat → List Char → Option (List Char × List Char)
  | 0, _ => none
  | _ + 1, [] => none
  | fuel + 1, c :: cs =>
    if c = mark then some ([], cs)
    else if c = '\\' ∧ mark = '"' then do
      let (d, rest) ← escape? cs
      let (text, rest) ← short? mark fuel rest
      return (d :: text, rest)
    else if isPlain c then (short? mark fuel cs).map fun (text, rest) => (c :: text, rest)
    else none

/-- The closing of a long string: three marks, after up to two marks that belong to the text. -/
def closing? (mark : Char) (cs : List Char) : Option (List Char × List Char) :=
  let marks := (cs.takeWhile (· = mark)).length
  if marks < 3 then none
  else
    let extra := min (marks - 3) 2
    some (List.replicate extra mark, cs.drop (3 + extra))

/-- The characters of a long string up to its closing; `fuel` bounds their number. -/
def long? (mark : Char) : Nat → List Char → Option (List Char × List Char)
  | 0, _ => none
  | _ + 1, [] => none
  | fuel + 1, c :: cs =>
    if c = mark then
      match closing? mark (c :: cs) with
      | some closed => some closed
      | none => (long? mark fuel cs).map fun (text, rest) => (c :: text, rest)
    else if c = '\\' ∧ mark = '"' then
      match continued? cs with
      | some rest => long? mark fuel rest
      | none => do
        let (d, rest) ← escape? cs
        let (text, rest) ← long? mark fuel rest
        return (d :: text, rest)
    else if isPlain c || c == '\n' then
      (long? mark fuel cs).map fun (text, rest) => (c :: text, rest)
    else none

/-- A text without the newline at its start. -/
def dropNewline : List Char → List Char
  | '\n' :: cs => cs
  | cs => cs

/-- A string on one line, and what follows it. -/
def readShort? : List Char → Option (List Char × List Char)
  | c :: cs => if c = '"' ∨ c = '\'' then short? c (cs.length + 1) cs else none
  | [] => none

/-- A string of either kind, and what follows it. -/
def readText? (cs : List Char) : Option (List Char × List Char) :=
  match cs with
  | a :: b :: c :: rest =>
    if (a = '"' ∨ a = '\'') ∧ b = a ∧ c = a then long? a (rest.length + 1) (dropNewline rest)
    else readShort? cs
  | _ => readShort? cs

end PrefixMatch.Toml
