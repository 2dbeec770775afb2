import PrefixMatch.Error.Cause
import PrefixMatch.Files.Path

/-!
# Files — Tree

A file system as data: what lies at which place, and the directory in which relative paths start.
Looking a path up walks it segment by segment, so that `..` and trailing slashes mean what they mean on
disk: everything but the last segment must be a directory that exists.
-/

namespace PrefixMatch

/-- What lies at a place. -/
inductive FileEntry where
  | file (content : ByteArray)
  | directory

/-- Names from the root of the file system downwards. -/
abbrev Place := List String

/-- A file system. -/
structure FileTree where
  /-- The place where relative paths start. -/
  workingDirectory : Place := []
  /-- What was put where, the latest first; the directories on the way to a place exist as well. -/
  entries : List (Place × FileEntry) := []

namespace FileTree

/-- What lies at a place. -/
def entry? (t : FileTree) (place : Place) : Option FileEntry :=
  match t.entries.find? fun e => e.1 == place with
  | some e => some e.2
  | none =>
    if place.isPrefixOf t.workingDirectory || t.entries.any fun e => place.isPrefixOf e.1 then
      some .directory
    else none

/-- The tree with something put at a place. -/
def put (t : FileTree) (place : Place) (entry : FileEntry) : FileTree :=
  { t with entries := (place, entry) :: t.entries.filter fun e => e.1 != place }

/-- Whether a directory lies at a place. -/
def isDirectoryAt (t : FileTree) (place : Place) : Bool :=
  match t.entry? place with
  | some .directory => true
  | _ => false

/-- The longest name of a file, in bytes. -/
def maxName : Nat := 255

/-- Follows the pieces of a path from a place.  An empty piece, as after a trailing slash, stands for
the directory itself, like a single dot. -/
def follow (t : FileTree) : Place → List String → Except IoError Place
  | place, [] => .ok place
  | place, piece :: pieces =>
    if !t.isDirectoryAt place then .error .notADirectory
    else if piece = "" ∨ piece = "." then t.follow place pieces
    else if piece = ".." then t.follow place.dropLast pieces
    else if maxName < piece.utf8ByteSize then .error .nameTooLong
    else
      match t.entry? (place ++ [piece]) with
      | none => .error .notFound
      | some _ => t.follow (place ++ [piece]) pieces

/-- Where a path starts. -/
def startOf (t : FileTree) (path : String) : Place :=
  if Path.isAbsolute path.toList then [] else t.workingDirectory

/-- The pieces of a path between its slashes. -/
def pieces (path : String) : List String :=
  (Text.split '/' path.toList).map String.ofList

/-- The place that a path leads to. -/
def locate (t : FileTree) (path : String) : Except IoError Place :=
  if path.isEmpty then .error .notFound
  else if path.toList.contains '\x00' then .error .nulInName
  else t.follow (t.startOf path) (pieces path)

/-- Whether a path leads anywhere. -/
def hasPath (t : FileTree) (path : String) : Bool :=
  (t.locate path).isOk

/-- The content of the file that a path leads to. -/
def read (t : FileTree) (path : String) : Except IoError ByteArray := do
  let place ← t.locate path
  match t.entry? place with
  | some (.file content) => return content
  | some .directory => throw .isADirectory
  | none => throw .notFound

/-- The text of the file that a path leads to. -/
def readText (t : FileTree) (path : String) : Except IoError String := do
  let content ← t.read path
  match String.fromUTF8? content with
  | some text => return text
  | none => throw .notUtf8

/-- Makes the last of some pieces a new directory. -/
def makeDirectory (t : FileTree) (start : Place) (names : List String) : Except IoError FileTree := do
  let place ← t.follow start names.dropLast
  if !t.isDirectoryAt place then throw .notADirectory
  match names.getLast? with
  | none => throw .exists
  | some name =>
    if name = "." ∨ name = ".." ∨ (t.entry? (place ++ [name])).isSome then throw .exists
    if maxName < name.utf8ByteSize then throw .nameTooLong
    return t.put (place ++ [name]) .directory

/-- What is left of an attempt to change files: the files as far as it came, and what stopped it. -/
structure Attempt where
  files : FileTree
  error : Option IoError := none

/-- An attempt that made no directory, which is no failure where there is one. -/
def settle (t : FileTree) (start : Place) (names : List String) (e : IoError) : Attempt :=
  match t.follow start names with
  | .ok place => if t.isDirectoryAt place then { files := t } else { files := t, error := some e }
  | .error _ => { files := t, error := some e }

/-- Makes a directory unless it exists, given its names from the last one upwards; directories that are
missing above it are made first, and stay when it cannot be made. -/
def makeDirectories (t : FileTree) (start : Place) : List String → Attempt
  | [] => { files := t }
  | name :: above =>
    let names := (name :: above).reverse
    match t.makeDirectory start names with
    | .ok t => { files := t }
    | .error .notFound =>
      let made := t.makeDirectories start above
      match made.error with
      | some _ => made
      | none =>
        match made.files.makeDirectory start names with
        | .ok t => { files := t }
        | .error e => made.files.settle start names e
    | .error e => t.settle start names e

/-- Makes the directories above the file that a path names. -/
def makeParents (t : FileTree) (path : String) : Attempt :=
  t.makeDirectories (t.startOf path)
    ((Path.segments path.toList).dropLast.reverse.map String.ofList)

/-- Puts content into the file that a path names, which is made or replaced. -/
def write (t : FileTree) (path : String) (content : ByteArray) : Except IoError FileTree := do
  if path.toList.contains '\x00' then throw .nulInName
  let all := pieces path
  let named := (all.reverse.dropWhile (· = "")).reverse
  let place ← t.follow (t.startOf path) named.dropLast
  if !t.isDirectoryAt place then throw .notADirectory
  match named.getLast? with
  | none => throw .isADirectory
  | some name =>
    if named.length < all.length ∨ name = "." ∨ name = ".." then throw .isADirectory
    if maxName < name.utf8ByteSize then throw .nameTooLong
    match t.entry? (place ++ [name]) with
    | some .directory => throw .isADirectory
    | _ => return t.put (place ++ [name]) (.file content)

end FileTree

end PrefixMatch
