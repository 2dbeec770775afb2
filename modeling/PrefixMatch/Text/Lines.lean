import PrefixMatch.Text.Split

/-!
# Text — Lines

The lines of a text, and which of them are blank.  A newline ends a line, together with one carriage
return directly before it; a carriage return at the very end of the text belongs to the last line.
-/

namespace PrefixMatch.Text

/-- The piece without one carriage return at its end. -/
def dropReturn (piece : List Char) : List Char :=
  if piece.getLast? = some '\r' then piece.dropLast else piece

/-- The lines among the pieces of a text: every piece but the last was ended by a newline, and an
empty last piece is no line. -/
def linesOfPieces : List (List Char) → List (List Char)
  | [] => []
  | [last] => if last = [] then [] else [last]
  | piece :: pieces => dropReturn piece :: linesOfPieces pieces

/-- The lines of a text. -/
def lines (cs : List Char) : List (List Char) :=
  linesOfPieces (split '\n' cs)

/-- Whether a character is white space in the sense of the Unicode property. -/
def isWhite (c : Char) : Bool :=
  let n := c.toNat
  (decide (0x9 ≤ n) && decide (n ≤ 0xD)) || n == 0x20 || n == 0x85 || n == 0xA0 || n == 0x1680 ||
    (decide (0x2000 ≤ n) && decide (n ≤ 0x200A)) || n == 0x2028 || n == 0x2029 || n == 0x202F ||
    n == 0x205F || n == 0x3000

/-- Whether a line holds nothing but white space. -/
def isBlank (line : List Char) : Bool :=
  line.all isWhite

end PrefixMatch.Text
