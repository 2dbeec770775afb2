import PrefixMatch.Text.Hex

/-!
# Json — Written

The written form of a text as a JSON string.  Quotes, backslashes and control characters are escaped, and
all other characters stand for themselves.
-/

namespace PrefixMatch.Json

/-- The hexadecimal digit of a number below sixteen. -/
def hexDigit (n : Nat) : Char :=
  if n < 10 then Char.ofNat ('0'.toNat + n) else Char.ofNat ('a'.toNat + n - 10)

/-- A character inside quotes. -/
def escapeChar (c : Char) : List Char :=
  if c = '"' then ['\\', '"']
  else if c = '\\' then ['\\', '\\']
  else if c = '\x08' then ['\\', 'b']
  else if c = '\x0c' then ['\\', 'f']
  else if c = '\n' then ['\\', 'n']
  else if c = '\r' then ['\\', 'r']
  else if c = '\t' then ['\\', 't']
  else if c.toNat < 0x20 then ['\\', 'u', '0', '0', hexDigit (c.toNat / 16), hexDigit (c.toNat % 16)]
  else [c]

/-- A text inside quotes. -/
def escape (cs : List Char) : List Char :=
  cs.flatMap escapeChar

/-- A text as a JSON string. -/
def writeText (s : String) : String :=
  String.ofList ('"' :: escape s.toList ++ ['"'])

end PrefixMatch.Json
