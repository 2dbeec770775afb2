/-!
# Yaml — Cursor

A place in a text: what is left of it, and the index, line and column of the next character.  A NUL ends
a text like its real end does, so that `peek` answers NUL from there on.
-/

namespace PrefixMatch.Yaml

/-- What `peek` answers at the end of a text. -/
def endMark : Char := '\x00'

/-- Whether a character ends a line. -/
def isBreak (c : Char) : Bool :=
  c == '\n' || c == '\r'

/-- Whether a character is a blank within a line. -/
def isBlank (c : Char) : Bool :=
  c == ' ' || c == '\t'

/-- Whether a line ends here, or the text. -/
def endsLine (c : Char) : Bool :=
  isBreak c || c == endMark

/-- Whether a word ends here. -/
def endsWord (c : Char) : Bool :=
  isBlank c || endsLine c

/-- The characters that give arrays and tables on one line their form. -/
def isFlow (c : Char) : Bool :=
  c == ',' || c == '[' || c == ']' || c == '\x7b' || c == '\x7d'

/-- The characters of names. -/
def isNameChar (c : Char) : Bool :=
  c.isAlphanum || c == '_' || c == '-'

/-- A place in a text. -/
structure Cursor where
  rest : List Char
  index : Nat := 0
  line : Nat := 0
  column : Nat := 0
  deriving Repr

namespace Cursor

/-- The start of a text. -/
def ofText (cs : List Char) : Cursor :=
  { rest := cs.takeWhile (· != endMark) }

/-- The character some places ahead. -/
def peek (c : Cursor) (n : Nat) : Char :=
  (c.rest[n]?).getD endMark

/-- The next character. -/
def next (c : Cursor) : Char :=
  c.peek 0

/-- Whether the text ends here. -/
def atEnd (c : Cursor) : Bool :=
  c.next == endMark

/-- The place after the next character; only a newline starts a new column. -/
def advance (c : Cursor) : Cursor :=
  match c.rest with
  | [] => c
  | x :: rest =>
    if x = '\n' then ⟨rest, c.index + 1, c.line + 1, 0⟩
    else ⟨rest, c.index + 1, c.line, c.column + 1⟩

/-- The place after several characters. -/
def skip : Nat → Cursor → Cursor
  | 0, c => c
  | n + 1, c => skip n c.advance

/-- The characters up to the first one without a property, and the place of that one. -/
def span (p : Char → Bool) (c : Cursor) : List Char × Cursor :=
  let taken := c.rest.takeWhile p
  (taken, c.skip taken.length)

/-- The place of the first character without a property. -/
def skipWhile (p : Char → Bool) (c : Cursor) : Cursor :=
  (c.span p).2

/-- The place after a line end, if there is one here. -/
def skipBreak (c : Cursor) : Cursor :=
  if c.next = '\r' ∧ c.peek 1 = '\n' then c.skip 2
  else if isBreak c.next then c.advance
  else c

/-- Whether three equal characters stand here as a word of their own at the start of a line. -/
def atMark (x : Char) (c : Cursor) : Bool :=
  c.column == 0 && c.next == x && c.peek 1 == x && c.peek 2 == x && endsWord (c.peek 3)

/-- Whether a mark between documents stands here. -/
def atDocumentMark (c : Cursor) : Bool :=
  c.atMark '-' || c.atMark '.'

/-- The rest of a line that may hold blanks and a comment only. -/
def restOfLine? (c : Cursor) : Option Cursor :=
  let c := c.skipWhile isBlank
  let c := if c.next = '#' then c.skipWhile fun x => !endsLine x else c
  if endsLine c.next then some c.skipBreak else none

end Cursor

/-- Blanks and line ends between two parts of a scalar. -/
structure Gap where
  /-- The blanks, as long as no line has ended. -/
  blanks : List Char := []
  /-- Whether a line has ended. -/
  folded : Bool := false
  /-- Whether a line end is to be shown, as a blank or by the line ends after it. -/
  shown : Bool := false
  /-- The line ends after the first one. -/
  breaks : Nat := 0
  deriving Repr

namespace Gap

/-- What a gap puts between the two parts. -/
def text (g : Gap) : List Char :=
  if !g.folded then g.blanks
  else if g.shown && g.breaks == 0 then [' ']
  else List.replicate g.breaks '\n'

/-- Extends a gap as far as possible; a tab before column `indent` of a later line is refused. -/
def extend? (indent : Int) : Nat → Gap → Cursor → Option (Gap × Cursor)
  | 0, g, c => some (g, c)
  | fuel + 1, g, c =>
    let x := c.next
    if isBlank x then
      if g.folded && decide ((c.column : Int) < indent) && x == '\t' then none
      else if g.folded then extend? indent fuel g c.advance
      else extend? indent fuel { g with blanks := g.blanks ++ [x] } c.advance
    else if isBreak x then
      if g.folded then extend? indent fuel { g with breaks := g.breaks + 1 } c.skipBreak
      else extend? indent fuel ⟨[], true, true, 0⟩ c.skipBreak
    else some (g, c)

/-- The gap that starts at a place. -/
def read? (indent : Int) (g : Gap) (c : Cursor) : Option (Gap × Cursor) :=
  extend? indent (c.rest.length + 1) g c

end Gap

end PrefixMatch.Yaml
