import PrefixMatch.Cli.LogFilter
import PrefixMatch.Cli.LogLine
import PrefixMatch.Cli.Run

/-!
# Main

The program: it looks up on disk what the run needs to know, runs, and carries out what the run decided.
-/

namespace PrefixMatch.Main

/-- The variables of an environment block, in which NUL ends each of them. -/
def environmentOf (block : String) : Environment :=
  ((Text.split '\x00' block.toList).filter fun v => !v.isEmpty).map fun v =>
    (String.ofList (v.takeWhile (· ≠ '=')), String.ofList ((v.dropWhile (· ≠ '=')).drop 1))

/-- The environment of the process. -/
def environment : IO Environment := do
  try
    let block ← IO.FS.readBinFile "/proc/self/environ"
    return environmentOf ((String.fromUTF8? block).getD "")
  catch _ => return []

/-- What lies on disk under a path. -/
def entryAt (path : String) : IO (Option FileEntry) := do
  let file := (← IO.currentDir) / path
  if ← file.isDir then return some .directory
  try
    return some (.file (← IO.FS.readBinFile file))
  catch _ => return none

/-- Notes what lies along a path, piece by piece, as far as something does. -/
def survey (t : FileTree) (place : Place) (start : String) : List String → IO FileTree
  | [] => return t
  | piece :: pieces => do
    let here := start ++ piece
    if piece = "" ∨ piece = "." then survey t place (here ++ "/") pieces
    else if piece = ".." then survey t place.dropLast (here ++ "/") pieces
    else
      match ← entryAt here with
      | none => return t
      | some entry =>
        let place := place ++ [piece]
        survey (t.put place entry) place (here ++ "/") pieces

/-- Notes what lies along each of some paths. -/
def surveyAll (t : FileTree) (paths : List String) : IO FileTree :=
  paths.foldlM (fun t path => survey t (t.startOf path) "" (FileTree.pieces path)) t

/-- What a run of an invocation needs to know about the disk. -/
def surveyFor (i : Cli.Invocation) (env : Environment) (t : FileTree) : IO FileTree := do
  let loader : ConfigLoader := ⟨i.config, Config.envName⟩
  let t ← surveyAll t (loader.paths)
  let vocabulary := (loader.resolve Cli.libraries t env).toOption.bind (Cli.vocabularyPath? i)
  let output :=
    match i.command with
    | .genConfig output => [output]
    | _ => []
  surveyAll t (vocabulary.toList ++ output)

/-- A place as a path. -/
def pathOf (place : Place) : String :=
  "/" ++ "/".intercalate place

/-- Whether an entry is one of a tree. -/
def isIn (t : FileTree) (place : Place) (entry : FileEntry) : Bool :=
  match t.entry? place, entry with
  | some .directory, .directory => true
  | some (.file a), .file b => a == b
  | _, _ => false

/-- Brings what a run put into the tree to disk, the first change first. -/
def carryOut (before after : FileTree) : IO Unit := do
  for (place, entry) in after.entries.reverse do
    if !isIn before place entry then
      match entry with
      | .directory => IO.FS.createDirAll (pathOf place)
      | .file content => IO.FS.writeBinFile (pathOf place) content

/-- The files that a run starts from. -/
def startingFiles (args : List String) (env : Environment) : IO FileTree := do
  let here := (← IO.currentDir).toString
  let t : FileTree :=
    { workingDirectory := (Path.segments here.toList).map String.ofList }
  match Cli.parse args with
  | some (.run i) => surveyFor i env t
  | _ => return t

end PrefixMatch.Main

open PrefixMatch in
/-- Runs the program with the arguments of the process. -/
def main (args : List String) : IO UInt32 := do
  let env ← Main.environment
  let files ← Main.startingFiles args env
  let o := Cli.run Cli.libraries args env files
  Main.carryOut files o.files
  IO.print o.output
  IO.eprint o.console
  if let some settings := o.log then
    for e in o.events do
      IO.eprint (Cli.LogLine.text settings e)
  return UInt32.ofNat o.status
