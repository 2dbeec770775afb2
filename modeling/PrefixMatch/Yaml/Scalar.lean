import PrefixMatch.Number.Reading
import PrefixMatch.Text.Hex
import PrefixMatch.Yaml.Cursor

/-!
# Yaml — Scalar

The three kinds of scalars: plain words, quoted texts, and blocks of lines.  Each reader gives the text of
the scalar and the place after it.
-/

namespace PrefixMatch.Yaml

/-- The characters of a plain scalar up to a blank, a line end, or a character that ends it. -/
def plainRun (inFlow : Bool) : List Char → List Char
  | [] => []
  | x :: rest =>
    let after := rest.head?.getD endMark
    if endsWord x then []
    else if x = ':' ∧ (endsWord after || (inFlow && isFlow after)) then []
    else if inFlow && isFlow x then []
    else x :: plainRun inFlow rest

/-- The rest of a plain scalar, given its text so far and the gap before this place; also tells whether
the scalar was left on a later line. -/
def plainFrom? (inFlow : Bool) (indent : Int) :
    Nat → List Char → Gap → Cursor → Option (List Char × Bool × Cursor)
  | 0, text, g, c => some (text, g.folded, c)
  | fuel + 1, text, g, c =>
    if c.atDocumentMark || c.next == '#' then some (text, g.folded, c)
    else
      let run := plainRun inFlow c.rest
      let after := c.skip run.length
      let text := if run.isEmpty then text else text ++ g.text ++ run
      let g := if run.isEmpty then g else {}
      if isBlank after.next || isBreak after.next then do
        let (g, c) ← Gap.read? indent g after
        if !inFlow && decide ((c.column : Int) < indent) then return (text, g.folded, c)
        else plainFrom? inFlow indent fuel text g c
      else some (text, g.folded, after)

/-- A plain scalar. -/
def plain? (inFlow : Bool) (indent : Int) (c : Cursor) : Option (List Char × Bool × Cursor) :=
  plainFrom? inFlow indent (c.rest.length + 1) [] {} c

/-- The character that a letter after a backslash stands for. -/
def escaped? : Char → Option Char
  | '0' => some '\x00'
  | 'a' => some '\x07'
  | 'b' => some '\x08'
  | 't' | '\t' => some '\t'
  | 'n' => some '\n'
  | 'v' => some '\x0b'
  | 'f' => some '\x0c'
  | 'r' => some '\r'
  | 'e' => some '\x1b'
  | ' ' => some ' '
  | '"' => some '"'
  | '\'' => some '\''
  | '\\' => some '\\'
  | 'N' => some '\u0085'
  | '_' => some '\u00A0'
  | 'L' => some '\u2028'
  | 'P' => some '\u2029'
  | _ => none

/-- How many hexadecimal digits follow a letter after a backslash. -/
def escapeDigits? : Char → Option Nat
  | 'x' => some 2
  | 'u' => some 4
  | 'U' => some 8
  | _ => none

/-- The character of the escape at a place, and the place after it. -/
def escape? (c : Cursor) : Option (Char × Cursor) :=
  match escapeDigits? (c.peek 1) with
  | some digits => do
    let (n, _) ← Text.takeHex? digits (c.rest.drop 2)
    let x ← Text.charOfNat? n
    return (x, c.skip (2 + digits))
  | none => (escaped? (c.peek 1)).map fun x => (x, c.skip 2)

/-- The characters of a quoted scalar up to a blank, a line end, the closing mark, or an escaped line
end, of which the answer tells whether it came. -/
def quotedRun? (mark : Char) : Nat → Cursor → Option (List Char × Bool × Cursor)
  | 0, c => some ([], false, c)
  | fuel + 1, c =>
    let x := c.next
    if endsWord x then some ([], false, c)
    else if x = mark then
      if mark = '\'' ∧ c.peek 1 = '\'' then
        (quotedRun? mark fuel (c.skip 2)).map fun (run, escaped, c) => ('\'' :: run, escaped, c)
      else some ([], false, c)
    else if x = '\\' ∧ mark = '"' then
      if isBreak (c.peek 1) then some ([], true, c.advance.skipBreak)
      else do
        let (y, c) ← escape? c
        let (run, escaped, c) ← quotedRun? mark fuel c
        return (y :: run, escaped, c)
    else
      (quotedRun? mark fuel c.advance).map fun (run, escaped, c) => (x :: run, escaped, c)

/-- The rest of a quoted scalar, given its text so far. -/
def quotedFrom? (mark : Char) : Nat → List Char → Cursor → Option (List Char × Cursor)
  | 0, _, _ => none
  | fuel + 1, text, c =>
    if c.atDocumentMark || c.atEnd then none
    else do
      let (run, escaped, c) ← quotedRun? mark (c.rest.length + 1) c
      let text := text ++ run
      if c.next = mark then return (text, c.advance)
      else
        let (g, c) ← Gap.read? (-1) { folded := escaped } c
        quotedFrom? mark fuel (text ++ g.text) c

/-- A quoted scalar that starts at its opening mark. -/
def quoted? (c : Cursor) : Option (List Char × Cursor) :=
  quotedFrom? c.next (c.rest.length + 1) [] c.advance

/-- What becomes of the line ends after a block. -/
inductive Chomping where
  | drop
  | clip
  | keep
  deriving DecidableEq, Repr

/-- The chomping that a sign asks for. -/
def chomping? : Char → Option Chomping
  | '+' => some .keep
  | '-' => some .drop
  | _ => none

/-- The header of a block after its first character: chomping and indentation, in either order, and the
rest of the line. -/
def blockHeader? (c : Cursor) : Option (Chomping × Nat × Cursor) := do
  let digit? := fun (c : Cursor) =>
    if c.next.isDigit then
      if c.next = '0' then none else some (Number.digitValue c.next, c.advance)
    else some (0, c)
  match chomping? c.next with
  | some chomping =>
    let (increment, c) ← digit? c.advance
    return (chomping, increment, ← c.restOfLine?)
  | none =>
    let (increment, c) ← digit? c
    match (if increment = 0 then none else chomping? c.next) with
    | some chomping => return (chomping, increment, ← c.advance.restOfLine?)
    | none => return (.clip, increment, ← c.restOfLine?)

/-- Skips empty lines and indentation inside a block whose lines start at column `indent`, or at the first
column in use when `indent` is zero; counts the lines. -/
def blockBreaks? (parent : Int) (indent : Nat) :
    Nat → Nat → Nat → Cursor → Option (Nat × Nat × Cursor)
  | 0, _, _, _ => none
  | fuel + 1, widest, breaks, c =>
    let spaces := (c.rest.takeWhile (· == ' ')).length
    let c := c.skip (if indent = 0 then spaces else min spaces (indent - c.column))
    let widest := max widest c.column
    if (indent == 0 || decide (c.column < indent)) && c.next == '\t' then none
    else if isBreak c.next then blockBreaks? parent indent fuel widest (breaks + 1) c.skipBreak
    else
      let found := if indent = 0 then max (max widest (parent + 1).toNat) 1 else indent
      some (found, breaks, c)

/-- The text of a block and the line ends after it. -/
structure Block where
  text : List Char := []
  /-- Whether the last line has ended. -/
  ended : Bool := false
  /-- The empty lines after the last line. -/
  breaks : Nat := 0
  /-- Whether the last line starts with a blank. -/
  startsBlank : Bool := false
  deriving Repr

namespace Block

/-- The block with what comes before one more line, which starts with a blank or not.  Between two lines
of a folded block that start without blanks a line end becomes a blank. -/
def beforeLine (literal : Bool) (b : Block) (blank : Bool) : List Char :=
  let joined :=
    if !literal && b.ended && !b.startsBlank && !blank then
      if b.breaks = 0 then b.text ++ [' '] else b.text
    else if b.ended then b.text ++ ['\n']
    else b.text
  joined ++ List.replicate b.breaks '\n'

/-- The text after chomping. -/
def chomped (b : Block) : Chomping → List Char
  | .drop => b.text
  | .clip => if b.ended then b.text ++ ['\n'] else b.text
  | .keep =>
    (if b.ended then b.text ++ ['\n'] else b.text) ++ List.replicate b.breaks '\n'

end Block

/-- The lines of a block from a place on. -/
def blockLines? (literal : Bool) (parent : Int) (indent : Nat) :
    Nat → Block → Cursor → Option (Block × Cursor)
  | 0, _, _ => none
  | fuel + 1, b, c =>
    if c.column ≠ indent ∨ c.atEnd then some (b, c)
    else
      let blank := isBlank c.next
      let (line, after) := c.span fun x => !endsLine x
      let text := b.beforeLine literal blank ++ line
      if after.atEnd then some (⟨text, false, 0, blank⟩, after)
      else do
        let c := after.skipBreak
        let (_, breaks, c) ← blockBreaks? parent indent (c.rest.length + 1) 0 0 c
        blockLines? literal parent indent fuel ⟨text, true, breaks, blank⟩ c

/-- A block of lines that starts at its first character; `parent` is the indentation around it. -/
def block? (parent : Int) (c : Cursor) : Option (List Char × Cursor) := do
  let literal := c.next == '|'
  let (chomping, increment, c) ← blockHeader? c.advance
  let given := if increment = 0 then 0 else if 0 ≤ parent then (parent + increment).toNat else increment
  let (indent, breaks, c) ← blockBreaks? parent given (c.rest.length + 1) 0 0 c
  let (b, c) ← blockLines? literal parent indent (c.rest.length + 1) { breaks } c
  return (b.chomped chomping, c)

end PrefixMatch.Yaml
