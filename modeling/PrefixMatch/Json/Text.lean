import PrefixMatch.Text.Hex

/-!
# JSON — Text

The strings of JSON.  Reading takes three steps, each by recursion on its input: the raw text up to the
closing quote, its pieces, and the characters that the pieces stand for.  Two surrogates in a row make
one character; a surrogate on its own is refused.
-/

namespace PrefixMatch.Json

/-- The raw text before the closing quote, and what follows the quote. -/
def rawText? : List Char → Option (List Char × List Char)
  | [] => none
  | '"' :: rest => some ([], rest)
  | ['\\'] => none
  | '\\' :: c :: rest => (rawText? rest).map fun (raw, rest) => ('\\' :: c :: raw, rest)
  | c :: rest => (rawText? rest).map fun (raw, rest) => (c :: raw, rest)

/-- A piece of a string: a character, or a unit of sixteen bits given by its number. -/
inductive Piece where
  | char (c : Char)
  | unit (n : Nat)
  deriving DecidableEq, Repr

/-- The character that a letter after a backslash stands for. -/
def escaped? : Char → Option Char
  | '"' => some '"'
  | '\\' => some '\\'
  | '/' => some '/'
  | 'b' => some '\x08'
  | 'f' => some '\x0c'
  | 'n' => some '\n'
  | 'r' => some '\r'
  | 't' => some '\t'
  | _ => none

/-- The pieces of a raw text. -/
def pieces? : List Char → Option (List Piece)
  | [] => some []
  | '\\' :: 'u' :: a :: b :: c :: d :: rest => do
    let n ← Text.digitsValue? 16 Text.hexValue? [a, b, c, d] 0
    let more ← pieces? rest
    return .unit n :: more
  | '\\' :: c :: rest => do
    let e ← escaped? c
    let more ← pieces? rest
    return .char e :: more
  | c :: rest =>
    if c.toNat < 0x20 ∨ c = '\\' then none else (pieces? rest).map (.char c :: ·)

/-- The characters that pieces stand for. -/
def ofPieces? : List Piece → Option (List Char)
  | [] => some []
  | .char c :: rest => (ofPieces? rest).map (c :: ·)
  | .unit high :: .unit low :: rest =>
    if 0xD800 ≤ high ∧ high ≤ 0xDBFF then
      if 0xDC00 ≤ low ∧ low ≤ 0xDFFF then do
        let c ← Text.charOfNat? (0x10000 + (high - 0xD800) * 0x400 + (low - 0xDC00))
        let more ← ofPieces? rest
        return c :: more
      else none
    else do
      let c ← Text.charOfNat? high
      let more ← ofPieces? (.unit low :: rest)
      return c :: more
  | .unit n :: rest => do
    let c ← Text.charOfNat? n
    let more ← ofPieces? rest
    return c :: more

/-- The string that starts after an opening quote, and what follows its closing quote. -/
def readText? (cs : List Char) : Option (String × List Char) := do
  let (raw, rest) ← rawText? cs
  let pieces ← pieces? raw
  let s ← ofPieces? pieces
  return (String.ofList s, rest)

end PrefixMatch.Json
