import PrefixMatch.Text.Hex

/-!
# Toml — Written

The written form of a text in a TOML document.  Of four forms the first one is taken that shows the
text without escapes: between quotes, between apostrophes, between three quotes, between three
apostrophes.  A text that fits none of them is escaped between quotes, three of them if it has a
newline.
-/

namespace PrefixMatch.Toml

/-- A way to write a text. -/
inductive Form where
  | basic
  | literal
  | longBasic
  | longLiteral
  deriving DecidableEq, Repr

/-- Whether a character can only be written as an escape. -/
def isControl (c : Char) : Bool :=
  (c.toNat ≤ 0x1F && c != '\t' && c != '\n') || c.toNat == 0x7F

/-- The length of the longest run of one character. -/
def longestRun (c : Char) : Nat → List Char → Nat
  | n, [] => n
  | n, d :: ds => if d = c then longestRun c (n + 1) ds else max n (longestRun c 0 ds)

/-- The form in which a text is written. -/
def formOf (cs : List Char) : Form :=
  let controls := cs.any isControl
  let escapes := cs.contains '\\'
  let newlines := cs.contains '\n'
  let quotes := cs.contains '"'
  let apostrophes := cs.contains '\''
  if !controls && !escapes && !quotes && !newlines then .basic
  else if !controls && !apostrophes && !newlines then .literal
  else if !controls && !escapes && longestRun '"' 0 cs ≤ 2 then .longBasic
  else if !controls && longestRun '\'' 0 cs ≤ 2 then .longLiteral
  else if newlines then .longBasic
  else .basic

/-- The hexadecimal digit of a number below sixteen, in upper case. -/
def upperDigit (n : Nat) : Char :=
  if n < 10 then Char.ofNat ('0'.toNat + n) else Char.ofNat ('A'.toNat + n - 10)

/-- A character other than a quote or a newline inside quotes. -/
def escapeChar (c : Char) : List Char :=
  if c = '\x08' then ['\\', 'b']
  else if c = '\t' then ['\\', 't']
  else if c = '\x0c' then ['\\', 'f']
  else if c = '\r' then ['\\', 'r']
  else if c = '\\' then ['\\', '\\']
  else if c.toNat ≤ 0x1F ∨ c.toNat = 0x7F then
    ['\\', 'u', '0', '0', upperDigit (c.toNat / 16), upperDigit (c.toNat % 16)]
  else [c]

/-- A text inside single quotes. -/
def escapeBasic : List Char → List Char
  | [] => []
  | c :: cs =>
    (if c = '"' then ['\\', '"'] else if c = '\n' then ['\\', 'n'] else escapeChar c) ++
      escapeBasic cs

/-- A text inside three quotes, after `run` quotes: every third quote of a run is escaped. -/
def escapeLong : Nat → List Char → List Char
  | _, [] => []
  | run, c :: cs =>
    if c = '"' then
      if run = 2 then '\\' :: '"' :: escapeLong 0 cs else '"' :: escapeLong (run + 1) cs
    else if c = '\n' then '\n' :: escapeLong 0 cs
    else escapeChar c ++ escapeLong 0 cs

/-- What opens a long form: a text with a newline starts on a line of its own. -/
def opening (cs : List Char) : List Char :=
  if cs.contains '\n' then ['\n'] else []

/-- The text in a given form. -/
def writeAs (cs : List Char) : Form → List Char
  | .basic => '"' :: escapeBasic cs ++ ['"']
  | .literal => '\'' :: cs ++ ['\'']
  | .longBasic => ['"', '"', '"'] ++ opening cs ++ escapeLong 0 cs ++ ['"', '"', '"']
  | .longLiteral => ['\'', '\'', '\''] ++ opening cs ++ cs ++ ['\'', '\'', '\'']

/-- The written form of a text. -/
def writeText (s : String) : String :=
  String.ofList (writeAs s.toList (formOf s.toList))

end PrefixMatch.Toml
