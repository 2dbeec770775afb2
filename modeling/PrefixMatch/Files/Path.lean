import PrefixMatch.Text.Split

/-!
# Files — Path

The parts of a path text.  Slashes separate segments; empty segments and segments `.` carry no name.
The last segment that is left names the file, unless it is `..`.
-/

namespace PrefixMatch.Path

/-- The segments of a path that carry a name or lead upwards. -/
def segments (path : List Char) : List (List Char) :=
  (Text.split '/' path).filter fun s => !(s.isEmpty || s == ['.'])

/-- The name of the file that a path leads to. -/
def fileName? (path : List Char) : Option (List Char) :=
  match (segments path).getLast? with
  | none => none
  | some last => if last = ['.', '.'] then none else some last

/-- The part of a name before its last dot and the part after it. -/
def splitLastDot : List Char → Option (List Char × List Char)
  | [] => none
  | c :: cs =>
    match splitLastDot cs with
    | some (stem, ext) => some (c :: stem, ext)
    | none => if c = '.' then some ([], cs) else none

/-- The extension of a file name: what follows its last dot, unless that dot comes first. -/
def nameExtension? (name : List Char) : Option (List Char) :=
  match splitLastDot name with
  | some (_ :: _, ext) => some ext
  | _ => none

/-- The extension of the file that a path leads to. -/
def extension? (path : List Char) : Option (List Char) :=
  (fileName? path).bind nameExtension?

/-- The end of a path read backwards, without slashes and single dots that carry no name. -/
def dropTrailing : List Char → List Char
  | '/' :: cs => dropTrailing cs
  | '.' :: '/' :: cs => dropTrailing cs
  | cs => cs

/-- The path up to the name of its file. -/
def throughFileName (path : List Char) : List Char :=
  (dropTrailing path.reverse).reverse

/-- Whether a path starts at the root of the file system. -/
def isAbsolute (path : List Char) : Bool :=
  path.head? == some '/'

end PrefixMatch.Path
