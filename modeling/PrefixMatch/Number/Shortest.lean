import PrefixMatch.Number.Double

/-!
# Number — Shortest

The decimal text of a floating-point number: the fewest digits that read back as the number, of those
the nearest, and always in positional notation.
-/

namespace PrefixMatch.Double

/-- The numbers that round to a given one: a closed or open interval of ratios over a common
denominator. -/
structure Interval where
  low : Nat
  high : Nat
  den : Nat
  closed : Bool
  deriving Repr

/-- The interval of the finite number `m · 2 ^ e`.  Below a power of two the neighbours are twice as
close. -/
def interval (m : Nat) (e : Int) : Interval :=
  let low := if m = Nat.pow 2 52 ∧ minExponent < e then 4 * m - 1 else 4 * m - 2
  let (num, den) := ratio 1 (e - 2)
  ⟨low * num, (4 * m + 2) * num, den, m % 2 = 0⟩

/-- Whether the ratio `num / den` lies in the interval. -/
def Interval.contains (i : Interval) (num den : Nat) : Bool :=
  if i.closed then decide (i.low * den ≤ num * i.den) && decide (num * i.den ≤ i.high * den)
  else decide (i.low * den < num * i.den) && decide (num * i.den < i.high * den)

/-- The least `j` from `start` on with `den ≤ num · 10 ^ j`, looked for in `fuel` steps. -/
def leadingZeros (num den : Nat) : Nat → Nat → Nat
  | 0, j => j
  | fuel + 1, j => if den ≤ num * Nat.pow 10 j then j else leadingZeros num den fuel (j + 1)

/-- The decimal exponent of the leading digit of a positive ratio. -/
def decimalExponent (num den : Nat) : Int :=
  if den ≤ num then ((digitCount (num / den) - 1 : Nat) : Int)
  else -(leadingZeros num den 400 0 : Int)

/-- The number `d · 10 ^ p` as a ratio. -/
def decimalRatio (d : Nat) (p : Int) : Nat × Nat :=
  if 0 ≤ p then (d * Nat.pow 10 p.toNat, 1) else (d, Nat.pow 10 (-p).toNat)

/-- The better of the two neighbours of `num / den` on the grid of multiples of `10 ^ p`, if one lies in
the interval. -/
def candidate? (i : Interval) (num den : Nat) (p : Int) : Option Nat :=
  let (n, d) := if 0 ≤ p then (num, den * Nat.pow 10 p.toNat) else (num * Nat.pow 10 (-p).toNat, den)
  let below := n / d
  let fits := fun k => let (a, b) := decimalRatio k p; i.contains a b
  let preferAbove := decide (d < 2 * (n % d))
  match fits below, fits (below + 1) with
  | true, true => some (if preferAbove then below + 1 else below)
  | true, false => some below
  | false, true => some (below + 1)
  | false, false => none

/-- The shortest digits and their exponent, tried with one digit more each time. -/
def shortest (i : Interval) (num den : Nat) (lead : Int) : Nat → Nat → Nat × Int
  | 0, count => ((candidate? i num den (lead - count)).getD 0, lead - count)
  | fuel + 1, count =>
    match candidate? i num den (lead - count) with
    | some d => (d, lead - count)
    | none => shortest i num den lead fuel (count + 1)

/-- Digits without the zeros at their end, with the exponent moved accordingly. -/
def dropZeros : Nat → Nat → Int → Nat × Int
  | 0, d, p => (d, p)
  | fuel + 1, d, p => if d % 10 = 0 ∧ d ≠ 0 then dropZeros fuel (d / 10) (p + 1) else (d, p)

/-- The text of `d · 10 ^ p` in positional notation. -/
def positional (d : Nat) (p : Int) : List Char :=
  let digits := Nat.toDigits 10 d
  if 0 ≤ p then digits ++ List.replicate p.toNat '0'
  else
    let places := (-p).toNat
    if places < digits.length then
      digits.take (digits.length - places) ++ '.' :: digits.drop (digits.length - places)
    else '0' :: '.' :: (List.replicate (places - digits.length) '0' ++ digits)

/-- The text of a number. -/
def text : Double → String
  | .nan => "NaN"
  | .infinite negative => if negative then "-inf" else "inf"
  | .finite negative m e =>
    let sign := if negative then ['-'] else []
    if m = 0 then String.ofList (sign ++ ['0'])
    else
      let (num, den) := ratio m e
      let (d, p) := shortest (interval m e) num den (decimalExponent num den) 17 0
      let (d, p) := dropZeros 20 d p
      String.ofList (sign ++ positional d p)

end PrefixMatch.Double
