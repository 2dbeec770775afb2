import PrefixMatch.Toml.Digits
import PrefixMatch.Toml.Document
import PrefixMatch.Toml.Moment

/-!
# Toml — Tolerant

The reader of TOML that goes by the look of bare words: a word with a `T`, or with a dash inside, is a
date and all others that start like a number are numbers.  The calendar is not consulted, and nothing
limits how deep values nest.
-/

namespace PrefixMatch.Toml.Tolerant

open Number (decimalValue splitSign)

/-- A bare word, and what follows it. -/
def word? (cs : List Char) : Option (List Char × List Char) :=
  match cs.takeWhile isBare with
  | [] => none
  | word => some (word, cs.dropWhile isBare)

/-- A mark and the bare word after it. -/
def marked? (mark : Char) (cs : List Char) : Option (List Char × List Char) :=
  match cs with
  | c :: rest =>
    if c = mark then (word? rest).map fun (word, rest) => (c :: word, rest) else none
  | [] => none

/-- A mark and the bare word after it, or nothing when the mark is missing. -/
def optionalMarked? (mark : Char) (cs : List Char) : Option (List Char × List Char) :=
  if cs.head? = some mark then marked? mark cs else some ([], cs)

/-- Whether a day has a month and lies within the longest month. -/
def isDate (d : Date) : Bool :=
  decide (1 ≤ d.month) && decide (d.month ≤ 12) && decide (1 ≤ d.day) && decide (d.day ≤ 31)

/-- Whether a time lies within a day, its end included. -/
def isTime (t : Time) : Bool :=
  decide (t.hour ≤ 24) && decide (t.minute ≤ 59) && decide (t.second ≤ 59)

/-- The time of a text, and what follows it. -/
def clock? (cs : List Char) : Option (Time × List Char) := do
  let (time, rest) ← time? cs
  if isTime time then return (time, rest) else failure

/-- The time after a day, if a mark says that one follows. -/
def timeAfter? (cs : List Char) : Option (List Char × List Char) :=
  match cs with
  | c :: rest =>
    if isTimeMark c then (clock? rest).map fun (time, rest) => ('T' :: time.text, rest)
    else some ([], cs)
  | [] => some ([], [])

/-- The offset after a day, with a time or without one, if anything follows at all. -/
def offsetAtEnd? (cs : List Char) : Option (List Char × List Char) :=
  if cs.isEmpty then some ([], [])
  else (offset? cs).map fun (offset, rest) => (offset.text, rest)

/-- The written form of the date, time, or both that a whole text spells. -/
def momentText? (cs : List Char) : Option (List Char) := do
  if cs[2]? = some ':' then
    match ← clock? cs with
    | (time, []) => return time.text
    | _ => failure
  else
    let (date, rest) ← date? cs
    if !isDate date then failure
    let (time, rest) ← timeAfter? rest
    let (offset, rest) ← offsetAtEnd? rest
    if rest.isEmpty then return date.text ++ time ++ offset else failure

/-- The extent of a date or time that starts with a word: an hour after one blank belongs to it, and so do
minutes, seconds, a fraction and an offset after colons. -/
def momentExtent? (word rest : List Char) : Option (List Char × List Char) := do
  let (hour, rest) := (marked? ' ' rest).getD ([], rest)
  match rest with
  | ':' :: _ =>
    let (minute, rest) ← marked? ':' rest
    let (second, rest) ← marked? ':' rest
    let (fraction, rest) ← optionalMarked? '.' rest
    let (ahead, rest) ← optionalMarked? '+' rest
    let (offset, rest) ← optionalMarked? ':' rest
    return (word ++ hour ++ minute ++ second ++ fraction ++ ahead ++ offset, rest)
  | rest => return (word ++ hour, rest)

/-- A date, a time, or both. -/
def moment? (word rest : List Char) : Option (Value × List Char) := do
  let (extent, rest) ← momentExtent? word rest
  let written ← momentText? extent
  return (.moment (String.ofList written), rest)

/-- Digits that fill a whole word. -/
def allDigits? (isDigit : Char → Bool) (cs : List Char) : Option (List Char) := do
  match ← digits? isDigit cs with
  | (digits, []) => return digits
  | _ => failure

/-- The integer of another base that a word spells after its mark. -/
def based? (base : Nat) (isDigit : Char → Bool) (word rest : List Char) :
    Option (Value × List Char) := do
  let digits ← allDigits? isDigit word
  let n ← Text.digitsValue? base Text.hexValue? digits 0
  bounded? n rest

/-- The decimal integer that a word spells. -/
def decimal? (word rest : List Char) : Option (Value × List Char) := do
  let (negative, unsigned) := splitSign word
  match ← whole? unsigned with
  | (digits, []) =>
    let n : Int := decimalValue digits
    bounded? (if negative then -n else n) rest
  | _ => failure

/-- The exponent of a number, given what follows its digits in the same word and what follows that word:
none, or a letter and digits, which may come after a plus sign. -/
def exponent? (ending rest : List Char) : Option (Int × List Char) :=
  match ending with
  | [] => some (0, rest)
  | c :: ending =>
    if c = 'e' ∨ c = 'E' then
      if ending = [] then do
        let (signed, rest) ← marked? '+' rest
        let digits ← allDigits? Char.isDigit (signed.drop 1)
        return (decimalValue digits, rest)
      else do
        let (negative, unsigned) := splitSign ending
        let digits ← allDigits? Char.isDigit unsigned
        let n : Int := decimalValue digits
        return (if negative then -n else n, rest)
    else none

/-- The number that a word and, after a point, a second word spell; it must be finite. -/
def fraction? (word : List Char) (places : Option (List Char)) (rest : List Char) :
    Option (Value × List Char) := do
  let (negative, unsigned) := splitSign word
  let (digits, ending) ← whole? unsigned
  let (places, ending) ←
    match places with
    | none => some ([], ending)
    | some places => if ending = [] then digits? Char.isDigit places else none
  let (exponent, rest) ← exponent? ending rest
  match Double.ofDecimal negative (decimalValue (digits ++ places)) (exponent - places.length) with
  | .finite negative m e => return (.float (.finite negative m e), rest)
  | _ => failure

/-- The number that starts with a word. -/
def number? (word rest : List Char) : Option (Value × List Char) :=
  match word with
  | '0' :: 'x' :: digits => based? 16 (fun c => (Text.hexValue? c).isSome) digits rest
  | '0' :: 'o' :: digits =>
    based? 8 (fun c => decide ('0' ≤ c) && decide (c ≤ '7')) digits rest
  | '0' :: 'b' :: digits => based? 2 (fun c => c == '0' || c == '1') digits rest
  | _ =>
    if word.contains 'e' || word.contains 'E' then fraction? word none rest
    else
      match rest with
      | '.' :: rest => do
        let (places, rest) ← word? rest
        fraction? word (some places) rest
      | _ =>
        match String.ofList word with
        | "inf" => some (.float (.infinite false), rest)
        | "-inf" => some (.float (.infinite true), rest)
        | "nan" | "-nan" => some (.float .nan, rest)
        | _ => decimal? word rest

/-- Whether a word has the letter of a time mark. -/
def hasTimeMark (word : List Char) : Bool :=
  word.contains 'T' || word.contains 't'

/-- Whether a word has a negative exponent. -/
def hasNegativeExponent : List Char → Bool
  | c :: d :: cs => ((c == 'e' || c == 'E') && d == '-') || hasNegativeExponent (d :: cs)
  | _ => false

/-- The date or number that starts with a word. -/
def momentOrNumber? (word rest : List Char) : Option (Value × List Char) :=
  if hasTimeMark word || ((word.drop 1).contains '-' && !hasNegativeExponent word) then
    moment? word rest
  else if rest.head? = some ':' then moment? word rest
  else number? word rest

/-- A value that is no string, array or inline table. -/
def scalar? (cs : List Char) : Option (Value × List Char) :=
  match cs with
  | '+' :: rest => do
    let (word, rest) ← word? rest
    number? word rest
  | _ => do
    let (word, rest) ← word? cs
    match String.ofList word with
    | "true" => return (.bool true, rest)
    | "false" => return (.bool false, rest)
    | "inf" | "nan" => momentOrNumber? word rest
    | _ =>
      if word.head?.any fun c => c == '-' || c.isDigit then momentOrNumber? word rest
      else failure

/-- The characters of comments: no control characters but the tab and the one beyond the printable
ones. -/
def inComment (c : Char) : Bool :=
  c == '\t' || decide (0x20 ≤ c.toNat)

/-- The dialect of this reader. -/
def dialect : Dialect :=
  ⟨scalar?, inComment, (· != '\n'), none⟩

end PrefixMatch.Toml.Tolerant
