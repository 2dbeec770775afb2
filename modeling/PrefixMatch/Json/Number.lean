import PrefixMatch.Json.Value
import PrefixMatch.Number.Reading

/-!
# JSON — Number

The numbers of JSON.  A number without fraction and exponent that fits into 64 bits is an integer.  Any
other number collects as many leading digits as fit into 64 bits, and is that integer, rounded, times or
divided by a rounded power of ten; a number beyond all finite ones is refused.
-/

namespace PrefixMatch.Json

/-- The parts of a written number. -/
structure NumberParts where
  negative : Bool
  whole : List Char
  fraction : Option (List Char)
  exponent : Option (Bool × List Char)
  deriving Repr

/-- The exponent at the start of a text: `some none` when there is none, `none` when it is broken. -/
def exponentPart? (cs : List Char) : Option (Option (Bool × List Char) × List Char) :=
  match cs with
  | c :: rest =>
    if c = 'e' ∨ c = 'E' then
      let (negative, rest) := Number.splitSign rest
      let digits := rest.takeWhile Char.isDigit
      if digits.isEmpty then none else some (some (negative, digits), rest.dropWhile Char.isDigit)
    else some (none, cs)
  | [] => some (none, [])

/-- The fraction at the start of a text: `some none` when there is none, `none` when it is broken. -/
def fractionPart? (cs : List Char) : Option (Option (List Char) × List Char) :=
  match cs with
  | '.' :: rest =>
    let digits := rest.takeWhile Char.isDigit
    if digits.isEmpty then none else some (some digits, rest.dropWhile Char.isDigit)
  | _ => some (none, cs)

/-- The parts of the number at the start of a text.  A leading zero stands alone. -/
def numberParts? (cs : List Char) : Option (NumberParts × List Char) := do
  let (negative, cs) := match cs with
    | '-' :: rest => (true, rest)
    | _ => (false, cs)
  let whole := cs.takeWhile Char.isDigit
  if whole.isEmpty || (whole.head? == some '0' && decide (1 < whole.length)) then failure
  let (fraction, rest) ← fractionPart? (cs.dropWhile Char.isDigit)
  let (exponent, rest) ← exponentPart? rest
  return (⟨negative, whole, fraction, exponent⟩, rest)

/-- The largest integer that is collected exactly. -/
def maxCollected : Nat := UInt64.size - 1

/-- Collects digits while they fit, and counts those that do not. -/
def collectWhole : List Char → Nat → Nat × Nat
  | [], n => (n, 0)
  | c :: cs, n =>
    let m := n * 10 + Number.digitValue c
    if maxCollected < m then (n, cs.length + 1) else collectWhole cs m

/-- Collects the digits of a fraction while they fit, and counts those that do. -/
def collectFraction : List Char → Nat → Nat → Nat × Nat
  | [], n, count => (n, count)
  | c :: cs, n, count =>
    let m := n * 10 + Number.digitValue c
    if maxCollected < m then (n, count) else collectFraction cs m (count + 1)

/-- The number nearest to a power of ten. -/
def powerOfTen (k : Nat) : Double :=
  Double.ofDecimal false 1 k

/-- Scales a number by a power of ten, in steps when the power lies far below the smallest one. -/
def scaleByTen? (d : Double) (e : Int) : Option Double :=
  if -308 ≤ e then
    if 0 ≤ e then
      if 308 < e then if d.isZero then some d else none
      else
        match d.mul (powerOfTen e.toNat) with
        | .infinite _ => none
        | r => some r
    else some (d.div (powerOfTen (-e).toNat))
  else if d.isZero then some d
  else scaleByTen? (d.div (powerOfTen 308)) (e + 308)
termination_by (-e).toNat

/-- The number of a collected integer and a power of ten, with a sign. -/
def assemble? (negative : Bool) (collected : Nat) (e : Int) : Option Double :=
  (scaleByTen? (Double.ofNat collected) e).map fun d => if negative then d.neg else d

/-- The value of a written number. -/
def numberValue? (p : NumberParts) : Option Json :=
  let (whole, skipped) := collectWhole p.whole 0
  if p.fraction.isNone && p.exponent.isNone && skipped == 0 then
    if !p.negative then some (.int whole)
    else if whole = 0 ∨ Nat.pow 2 63 < whole then some (.float (Double.ofNat whole).neg)
    else some (.int (-whole))
  else
    let (collected, places) := collectFraction (p.fraction.getD []) whole 0
    let start : Int := (skipped : Int) - places
    match p.exponent with
    | none => (assemble? p.negative collected start).map .float
    | some (down, digits) =>
      let e : Int := Number.decimalValue digits
      if Nat.pow 2 31 ≤ e then
        if collected ≠ 0 ∧ !down then none else some (.float (Double.zero p.negative))
      else
        (assemble? p.negative collected (if down then start - e else start + e)).map .float

/-- The number at the start of a text. -/
def readNumber? (cs : List Char) : Option (Json × List Char) := do
  let (parts, rest) ← numberParts? cs
  let value ← numberValue? parts
  return (value, rest)

end PrefixMatch.Json
