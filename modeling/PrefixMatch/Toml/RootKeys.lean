import PrefixMatch.Toml.Exact

/-!
# Toml — Root keys

The keys of the root table of a document, for documents whose sections may stand together.  A table grows
in two ways: by headers, which may open it once, and by dotted keys within one section.  `rootKeys? cs`
is `none` when the layout is wrong or when a section or a field clashes with an earlier one.
-/

namespace PrefixMatch.Toml

/-- How a table came to be. -/
inductive Origin where
  /-- By a longer header; a header of its own may still open it. -/
  | implied
  /-- By a dotted key. -/
  | dotted
  /-- By its own header, or as the root, or as an element of an array of tables. -/
  | opened
  deriving DecidableEq, Repr

/-- What a key leads to, as far as later sections and fields depend on it. -/
inductive Item where
  | value
  | table (origin : Origin) (items : List (String × Item))
  /-- An array of tables; only its last element can still grow. -/
  | tables (last : List (String × Item))
  deriving Repr, Inhabited

/-- The items of a table. -/
abbrev Items := List (String × Item)

namespace Items

/-- Changes the table that a path leads to, making tables of the given origin on the way.  A dotted key
may not reach into a table that was opened. -/
def change? (made : Origin) (f : Origin → Items → Option Items) :
    List String → Origin → Items → Option Items
  | [], origin, items => f origin items
  | key :: keys, _, items =>
    match Fields.get? key items with
    | none => do
      let below ← change? made f keys made []
      return Fields.put key (.table made below) items
    | some .value => none
    | some (.tables last) => do
      let last ← change? made f keys .opened last
      return Fields.put key (.tables last) items
    | some (.table origin below) =>
      if made = .dotted ∧ origin = .opened then none
      else do
        let below ← change? made f keys origin below
        return Fields.put key (.table origin below) items

/-- Sets a field of an opened table.  The table that the field belongs to is made by dotted keys exactly
when the key is dotted. -/
def setField? (items : Items) (path : List String) : Option Items := do
  let key ← path.getLast?
  let above := path.dropLast
  change? .dotted
    (fun origin items => if (origin = .dotted) = (above = []) then none else Fields.add? key .value items)
    above .opened items

/-- Sets the fields of a section in turn. -/
def setFields? (items : Items) (fields : List Field) : Option Items :=
  fields.foldlM (fun items f => items.setField? f.1) items

/-- Adds a section below the root. -/
def addSection? (root : Items) (s : Section) : Option Items := do
  let key ← s.path.getLast?
  change? .implied
    (fun _ items =>
      match s.isElement, Fields.get? key items with
      | true, none | true, some (.tables _) => do
        let element ← setFields? [] s.fields
        return Fields.put key (.tables element) items
      | false, none => do
        let table ← setFields? [] s.fields
        return Fields.put key (.table .opened table) items
      | false, some (.table .implied below) => do
        let table ← setFields? below s.fields
        return Fields.put key (.table .opened table) items
      | _, _ => none)
    s.path.dropLast .opened root

end Items

/-- The root table of sections, the first of which is the root itself. -/
def rootTable? : List Section → Option Items
  | [] => some []
  | root :: sections => do
    let items ← Items.setFields? [] root.fields
    sections.foldlM Items.addSection? items

/-- The keys of the root table of a document, each once, in the order in which they first come. -/
def rootKeys? (cs : List Char) : Option (List String) := do
  let sections ← sections? Exact.dialect cs
  let root ← rootTable? sections
  return Fields.keys root

end PrefixMatch.Toml
