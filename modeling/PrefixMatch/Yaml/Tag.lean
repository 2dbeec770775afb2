import PrefixMatch.Text.Hex
import PrefixMatch.Yaml.Cursor

/-!
# Yaml — Tag

The names of types before nodes, and the directive lines before documents.
-/

namespace PrefixMatch.Yaml

/-- A tag: the handle that says where the name belongs, and the name. -/
structure Tag where
  handle : String
  name : String
  deriving DecidableEq, Repr

/-- The characters of tag names besides names' own. -/
def isTagChar (c : Char) : Bool :=
  isNameChar c || ";/?:@&=+$,.!~*'()[]%".toList.contains c

/-- How many bytes a character takes, by its first byte. -/
def bytesOfLead? (n : Nat) : Option Nat :=
  if n < 0x80 then some 1
  else if n / 0x20 = 6 then some 2
  else if n / 0x10 = 14 then some 3
  else if n / 8 = 30 then some 4
  else none

/-- The byte written as a percent sign and two digits. -/
def percentByte? (c : Cursor) : Option (Nat × Cursor) :=
  if c.next = '%' then (Text.takeHex? 2 (c.rest.drop 1)).map fun (n, _) => (n, c.skip 3) else none

/-- Further bytes of a character, joined to the first ones. -/
def moreBytes? : Nat → Nat → Cursor → Option (Nat × Cursor)
  | 0, code, c => some (code, c)
  | n + 1, code, c => do
    let (byte, c) ← percentByte? c
    if byte / 0x40 = 2 then moreBytes? n (code * 0x100 + byte) c else failure

/-- The character that percent signs and digits spell; its number is made of its bytes as they are. -/
def percent? (c : Cursor) : Option (Char × Cursor) := do
  let (lead, c) ← percentByte? c
  let width ← bytesOfLead? lead
  let (code, c) ← moreBytes? (width - 1) lead c
  let x ← Text.charOfNat? code
  return (x, c)

/-- The characters of a tag name from a place on. -/
def tagChars? : Nat → Cursor → Option (List Char × Cursor)
  | 0, c => some ([], c)
  | fuel + 1, c =>
    if !isTagChar c.next then some ([], c)
    else if c.next = '%' then do
      let (x, c) ← percent? c
      let (name, c) ← tagChars? fuel c
      return (x :: name, c)
    else (tagChars? fuel c.advance).map fun (name, c') => (c.next :: name, c')

/-- A tag name, which continues what was read as a handle. -/
def tagName? (head : List Char) (c : Cursor) : Option (List Char × Cursor) := do
  let (name, c) ← tagChars? (c.rest.length + 1) c
  if head.isEmpty && name.isEmpty then failure
  return (head.drop 1 ++ name, c)

/-- What may be a handle: an exclamation mark, a name, and a second mark if there is one. -/
def handle? (c : Cursor) : Option (List Char × Cursor) :=
  if c.next = '!' then
    let (name, c) := c.advance.span isNameChar
    if c.next = '!' then some ('!' :: name ++ ['!'], c.advance) else some ('!' :: name, c)
  else none

/-- A tag that starts at its exclamation mark. -/
def tag? (c : Cursor) : Option (Tag × Cursor) := do
  let (tag, c) ←
    if c.peek 1 = '<' then do
      let (name, c) ← tagName? [] (c.skip 2)
      if c.next ≠ '>' then failure
      pure (⟨"", String.ofList name⟩, c.advance)
    else do
      let (handle, c) ← handle? c
      if 2 ≤ handle.length ∧ handle.getLast? = some '!' then
        let (name, c) ← tagName? [] c
        pure (⟨String.ofList handle, String.ofList name⟩, c)
      else
        let (name, c) ← tagName? handle c
        if name.isEmpty then pure (⟨"", "!"⟩, c) else pure (⟨"!", String.ofList name⟩, c)
  if endsWord c.next then return (tag, c) else failure

/-- A number in a version. -/
def versionNumber? (c : Cursor) : Option Cursor :=
  let (digits, c) := c.span Char.isDigit
  if digits.isEmpty || decide (9 < digits.length) then none else some c

/-- A directive after its percent sign and name. -/
def directiveValue? (name : String) (c : Cursor) : Option Cursor :=
  match name with
  | "YAML" => do
    let c ← versionNumber? (c.skipWhile isBlank)
    if c.next ≠ '.' then failure
    versionNumber? c.advance
  | "TAG" => do
    let (handle, c) ← handle? (c.skipWhile isBlank)
    if handle ≠ ['!'] ∧ (handle.length < 2 ∨ handle.getLast? ≠ some '!') then failure
    let (_, c) ← tagName? [] (c.skipWhile isBlank)
    if endsWord c.next then return c else failure
  | _ => some (c.skipWhile fun x => !endsLine x)

/-- A directive line, of which only the form matters. -/
def directive? (c : Cursor) : Option Cursor := do
  let (name, c) := c.advance.span isNameChar
  if name.isEmpty || !endsWord c.next then failure
  let c ← directiveValue? (String.ofList name) c
  c.restOfLine?

end PrefixMatch.Yaml
