import PrefixMatch.Toml.Digits
import PrefixMatch.Toml.Document
import PrefixMatch.Toml.Moment

/-!
# Toml — Exact

The reader of TOML that goes by the letter of the format: numbers without needless zeros, days that the
calendar has, and at most 79 keys in a path and 79 values inside each other.
-/

namespace PrefixMatch.Toml.Exact

open Number (decimalValue splitSign)

/-- The digits of an integer in another base, after its mark. -/
def based? (base : Nat) (isDigit : Char → Bool) (cs : List Char) : Option (Value × List Char) := do
  let (digits, rest) ← digits? isDigit cs
  let n ← Text.digitsValue? base Text.hexValue? digits 0
  bounded? n rest

/-- An integer. -/
def integer? (cs : List Char) : Option (Value × List Char) :=
  match cs with
  | '0' :: 'x' :: rest => based? 16 (fun c => (Text.hexValue? c).isSome) rest
  | '0' :: 'o' :: rest => based? 8 (fun c => decide ('0' ≤ c) && decide (c ≤ '7')) rest
  | '0' :: 'b' :: rest => based? 2 (fun c => c == '0' || c == '1') rest
  | _ => do
    let (negative, rest) := splitSign cs
    let (digits, rest) ← whole? rest
    let n : Int := decimalValue digits
    bounded? (if negative then -n else n) rest

/-- The places after a point, if there are any. -/
def places? : List Char → Option (List Char × List Char)
  | '.' :: rest => digits? Char.isDigit rest
  | rest => some ([], rest)

/-- The exponent of a number, if there is one. -/
def exponent? : List Char → Option (Option Int × List Char)
  | c :: rest =>
    if c = 'e' ∨ c = 'E' then do
      let (negative, rest) := splitSign rest
      let (digits, rest) ← digits? Char.isDigit rest
      let n : Int := decimalValue digits
      return (some (if negative then -n else n), rest)
    else some (none, c :: rest)
  | [] => some (none, [])

/-- A number with a point or an exponent; one that is too large upwards is refused. -/
def fraction? (cs : List Char) : Option (Value × List Char) := do
  let (negative, rest) := splitSign cs
  let (digits, rest) ← whole? rest
  let (places, rest) ← places? rest
  let (exponent, rest) ← exponent? rest
  if places.isEmpty && exponent.isNone then failure
  else
    match Double.ofDecimal negative (decimalValue (digits ++ places))
        (exponent.getD 0 - places.length) with
    | .infinite false => failure
    | d => return (.float d, rest)

/-- What follows a fixed word. -/
def afterWord? (word : String) (cs : List Char) : Option (List Char) :=
  if word.toList.isPrefixOf cs then some (cs.drop word.length) else none

/-- One of the words for infinity and for no number. -/
def special? (cs : List Char) : Option (Value × List Char) :=
  let (negative, rest) := splitSign cs
  match afterWord? "inf" rest with
  | some rest => some (.float (.infinite negative), rest)
  | none => (afterWord? "nan" rest).map (.float .nan, ·)

/-- The number of days in a month. -/
def daysIn (year month : Nat) : Nat :=
  if month = 2 then
    if year % 4 = 0 ∧ (year % 100 ≠ 0 ∨ year % 400 = 0) then 29 else 28
  else if month = 4 ∨ month = 6 ∨ month = 9 ∨ month = 11 then 30
  else 31

/-- Whether the calendar has a day. -/
def isDate (d : Date) : Bool :=
  decide (1 ≤ d.month) && decide (d.month ≤ 12) && decide (1 ≤ d.day) &&
    decide (d.day ≤ daysIn d.year d.month)

/-- Whether the clock shows a time, leap seconds included. -/
def isTime (t : Time) : Bool :=
  decide (t.hour ≤ 23) && decide (t.minute ≤ 59) && decide (t.second ≤ 60)

/-- Whether an offset is less than a day. -/
def isOffset : Offset → Bool
  | .universal => true
  | .shifted _ hours minutes => decide (hours ≤ 23) && decide (minutes ≤ 59)

/-- A time of day that the clock shows. -/
def clock? (cs : List Char) : Option (Time × List Char) := do
  let (time, rest) ← time? cs
  if isTime time then return (time, rest) else failure

/-- The time after a day, with its offset, if a mark and a time follow. -/
def timeAfter (cs : List Char) : List Char × List Char :=
  match cs with
  | c :: rest =>
    match (if isTimeMark c then clock? rest else none) with
    | none => ([], cs)
    | some (time, rest) =>
      match offset? rest with
      | some (offset, rest') =>
        if isOffset offset then ('T' :: time.text ++ offset.text, rest') else ('T' :: time.text, rest)
      | none => ('T' :: time.text, rest)
  | [] => ([], [])

/-- A date, a time, or both. -/
def moment? (cs : List Char) : Option (Value × List Char) :=
  match date? cs with
  | some (date, rest) =>
    if isDate date then
      let (time, rest) := timeAfter rest
      some (.moment (String.ofList (date.text ++ time)), rest)
    else none
  | none => (clock? cs).map fun (time, rest) => (.moment (String.ofList time.text), rest)

/-- A value that is no string, array or inline table. -/
def scalar? (cs : List Char) : Option (Value × List Char) :=
  match afterWord? "true" cs, afterWord? "false" cs with
  | some rest, _ => some (.bool true, rest)
  | none, some rest => some (.bool false, rest)
  | none, none => special? cs <|> moment? cs <|> fraction? cs <|> integer? cs

/-- The characters of comments: no control characters but the tab. -/
def inComment (c : Char) : Bool :=
  isPlain c

/-- The dialect of this reader. -/
def dialect : Dialect :=
  ⟨scalar?, inComment, inComment, some 79⟩

end PrefixMatch.Toml.Exact
