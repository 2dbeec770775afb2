import PrefixMatch.Number.Reading

/-!
# Toml — Moment

Dates, times of day and offsets from universal time, each read by its digits alone; which numbers are
allowed is for the readers to say.
-/

namespace PrefixMatch.Toml

open Number (decimalValue)

/-- A day of a year. -/
structure Date where
  year : Nat
  month : Nat
  day : Nat
  deriving DecidableEq, Repr

/-- A time of day, with the digits of the fraction of its second. -/
structure Time where
  hour : Nat
  minute : Nat
  second : Nat
  fraction : List Char := []
  deriving DecidableEq, Repr

/-- How far a clock is from universal time. -/
inductive Offset where
  | universal
  | shifted (behind : Bool) (hours minutes : Nat)
  deriving DecidableEq, Repr

/-- A number of exactly so many digits. -/
def fixedDigits? (count : Nat) (cs : List Char) : Option (Nat × List Char) :=
  let digits := cs.take count
  if digits.length = count ∧ digits.all Char.isDigit then
    some (decimalValue digits, cs.drop count)
  else none

/-- What follows an expected character. -/
def after? (c : Char) : List Char → Option (List Char)
  | [] => none
  | d :: cs => if d = c then some cs else none

/-- A day, as in `1979-05-27`. -/
def date? (cs : List Char) : Option (Date × List Char) := do
  let (year, rest) ← fixedDigits? 4 cs
  let (month, rest) ← fixedDigits? 2 (← after? '-' rest)
  let (day, rest) ← fixedDigits? 2 (← after? '-' rest)
  return (⟨year, month, day⟩, rest)

/-- A time of day, as in `07:32:00.5`. -/
def time? (cs : List Char) : Option (Time × List Char) := do
  let (hour, rest) ← fixedDigits? 2 cs
  let (minute, rest) ← fixedDigits? 2 (← after? ':' rest)
  let (second, rest) ← fixedDigits? 2 (← after? ':' rest)
  match rest with
  | '.' :: rest =>
    let fraction := rest.takeWhile Char.isDigit
    if fraction.isEmpty then failure
    else return (⟨hour, minute, second, fraction⟩, rest.dropWhile Char.isDigit)
  | rest => return (⟨hour, minute, second, []⟩, rest)

/-- An offset, as in `Z` or `-07:00`. -/
def offset? (cs : List Char) : Option (Offset × List Char) :=
  match cs with
  | c :: rest =>
    if c = 'Z' ∨ c = 'z' then some (.universal, rest)
    else if c = '+' ∨ c = '-' then do
      let (hours, rest) ← fixedDigits? 2 rest
      let (minutes, rest) ← fixedDigits? 2 (← after? ':' rest)
      return (.shifted (c == '-') hours minutes, rest)
    else none
  | [] => none

/-- Whether a character may stand between a day and a time. -/
def isTimeMark (c : Char) : Bool :=
  c == 'T' || c == 't' || c == ' '

/-- A number with at least so many digits. -/
def padded (width n : Nat) : List Char :=
  let digits := Nat.toDigits 10 n
  List.replicate (width - digits.length) '0' ++ digits

/-- The written form of a day. -/
def Date.text (d : Date) : List Char :=
  padded 4 d.year ++ '-' :: padded 2 d.month ++ '-' :: padded 2 d.day

/-- The written form of a time; nine places of the fraction count, and zeros at its end are left out. -/
def Time.text (t : Time) : List Char :=
  let places := ((t.fraction.take 9).reverse.dropWhile (· = '0')).reverse
  padded 2 t.hour ++ ':' :: padded 2 t.minute ++ ':' :: padded 2 t.second ++
    if places.isEmpty then [] else '.' :: places

/-- The written form of an offset; the sign belongs to the hours, and no hours are never behind. -/
def Offset.text : Offset → List Char
  | .universal => ['Z']
  | .shifted behind hours minutes =>
    (if behind && hours != 0 then '-' else '+') :: padded 2 hours ++ ':' :: padded 2 minutes

end PrefixMatch.Toml
