import PrefixMatch.Text.Unprintable

/-!
# Text — Quoted

A text as it is shown for inspection: between double quotes, with a backslash before quotes and
backslashes, short escapes for the common control characters and the number of every other character
that cannot be printed.
-/

namespace PrefixMatch.Text

/-- The hexadecimal digits of a number, in lower case and without leading zeros. -/
def hexDigits (n : Nat) : List Char :=
  Nat.toDigits 16 n

/-- How a quoted text shows a character; `apostrophe` says whether single quotes are escaped too. -/
def quotedChar (apostrophe : Bool) (c : Char) : List Char :=
  if c = '\x00' then ['\\', '0']
  else if c = '\t' then ['\\', 't']
  else if c = '\r' then ['\\', 'r']
  else if c = '\n' then ['\\', 'n']
  else if c = '\\' then ['\\', '\\']
  else if c = '"' then ['\\', '"']
  else if c = '\'' then if apostrophe then ['\\', '\''] else [c]
  else if isUnprintable c then ['\\', 'u', '\x7b'] ++ hexDigits c.toNat ++ ['\x7d']
  else [c]

/-- The quoted form of a text. -/
def quoted (s : String) : String :=
  String.ofList ('"' :: (s.toList.flatMap (quotedChar false) ++ ['"']))

/-- The quoted form of a file path, in which single quotes are escaped too. -/
def quotedPath (s : String) : String :=
  String.ofList ('"' :: (s.toList.flatMap (quotedChar true) ++ ['"']))

end PrefixMatch.Text
