import PrefixMatch.Toml.Tolerant

/-!
# Toml — Tables

The root table of a document, with all values.  Sections are gathered by the first key of their paths, and
each key is used once: by a field, by a table together with the sections below it, or by an array of
tables, each element of which takes the sections up to the next one.
-/

namespace PrefixMatch.Toml

namespace Section

/-- The section as seen from the table under the first key of its path. -/
def inner (s : Section) : Section :=
  { s with path := s.path.drop 1 }

/-- Whether a section is an element of an array under the first key of its path. -/
def opensElement (s : Section) : Bool :=
  s.isElement && s.path.length == 1

end Section

/-- The first keys of sections, each once. -/
def firstKeys (sections : List Section) : List String :=
  (sections.filterMap fun s => s.path.head?).eraseDups

/-- Sections cut before each one that opens an element: those before the first, and the groups. -/
def cutElements : List Section → List Section × List (List Section)
  | [] => ([], [])
  | s :: sections =>
    let (before, groups) := cutElements sections
    if s.opensElement then ([], (s :: before) :: groups) else (s :: before, groups)

/-- The fields of a table together with the tables below it, if no key is used twice. -/
def joined? (fields below : List (String × Value)) : Option (List (String × Value)) :=
  if below.all fun f => !Fields.has f.1 fields then some (fields ++ below) else none

/-- The table that sections make up, where a section with an empty path gives its own fields; `depth`
bounds the length of the paths. -/
def table? : Nat → List Section → Option (List (String × Value))
  | 0, _ => none
  | depth + 1, sections => do
    let own := sections.filter fun s => s.path.isEmpty
    let fields ←
      match own with
      | [] => some []
      | [s] => Value.table? s.fields
      | _ => none
    let below ← (firstKeys sections).mapM fun key => do
      let group := sections.filter fun s => s.path.head? = some key
      match group with
      | s :: _ =>
        if s.opensElement then do
          let (_, elements) := cutElements group
          let tables ← elements.mapM fun element => table? depth (element.map Section.inner)
          return (key, Value.array (tables.map Value.table))
        else if group.any Section.opensElement then failure
        else do
          let table ← table? depth (group.map Section.inner)
          return (key, Value.table table)
      | [] => failure
    joined? fields below

/-- The root table of a document. -/
def rootTable (sections : List Section) : Option (List (String × Value)) :=
  table? ((sections.map fun s => s.path.length).foldl max 0 + 1) sections

/-- Reads a document. -/
def read? (cs : List Char) : Option (List (String × Value)) := do
  let sections ← sections? Tolerant.dialect cs
  rootTable sections

end PrefixMatch.Toml
