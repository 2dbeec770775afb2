import PrefixMatch.Number.Reading
import PrefixMatch.Toml.Value

/-!
# Toml — Digits

The digits of numbers, in which single underscores may stand between two digits.
-/

namespace PrefixMatch.Toml

/-- Digits, with single underscores between them, and what follows them; the digits are given without
the underscores. -/
def digits? (isDigit : Char → Bool) : List Char → Option (List Char × List Char)
  | [] => none
  | c :: cs =>
    if !isDigit c then none
    else
      match cs with
      | '_' :: rest => (digits? isDigit rest).map fun (ds, rest) => (c :: ds, rest)
      | rest =>
        match digits? isDigit rest with
        | some (ds, rest) => some (c :: ds, rest)
        | none => if rest.head?.any isDigit then none else some ([c], rest)

/-- The digits of a decimal integer: no zero stands before other digits. -/
def whole? (cs : List Char) : Option (List Char × List Char) := do
  let (digits, rest) ← digits? Char.isDigit cs
  match digits with
  | '0' :: _ :: _ => failure
  | _ => return (digits, rest)

/-- An integer of 64 bits, and what follows it. -/
def bounded? (n : Int) (rest : List Char) : Option (Value × List Char) :=
  if Number.fitsInt64 n then some (.int n, rest) else none

end PrefixMatch.Toml
