/-!
# Text — Hex

Hexadecimal digits, and characters given by their number.
-/

namespace PrefixMatch.Text

/-- The value of a hexadecimal digit of either case. -/
def hexValue? (c : Char) : Option Nat :=
  if '0' ≤ c ∧ c ≤ '9' then some (c.toNat - '0'.toNat)
  else if 'a' ≤ c ∧ c ≤ 'f' then some (c.toNat - 'a'.toNat + 10)
  else if 'A' ≤ c ∧ c ≤ 'F' then some (c.toNat - 'A'.toNat + 10)
  else none

/-- The value of digits in a base, each read by `value?`. -/
def digitsValue? (base : Nat) (value? : Char → Option Nat) : List Char → Nat → Option Nat
  | [], n => some n
  | c :: cs, n => (value? c).bind fun d => digitsValue? base value? cs (n * base + d)

/-- The first `count` characters as a hexadecimal number, with what follows them. -/
def takeHex? (count : Nat) (cs : List Char) : Option (Nat × List Char) :=
  if cs.length < count then none
  else (digitsValue? 16 hexValue? (cs.take count) 0).map fun n => (n, cs.drop count)

/-- The character with a number, unless the number is a surrogate or too large. -/
def charOfNat? (n : Nat) : Option Char :=
  if h : n.isValidChar then some (Char.ofNatAux n h) else none

end PrefixMatch.Text
