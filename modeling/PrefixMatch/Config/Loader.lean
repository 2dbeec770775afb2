import PrefixMatch.Files.Tree
import PrefixMatch.Layer.Conversion
import PrefixMatch.Layer.Environment
import PrefixMatch.Layer.File
import PrefixMatch.Text.Quoted

/-!
# Config — Loader

A configuration from three layers: the defaults, a file if one is given, and environment variables.  Each
layer overrides those before it, setting by setting, and the outcome must be valid.  A layer that cannot be
laid over those before it crashes the program.
-/

namespace PrefixMatch

/-- Where a configuration comes from. -/
structure ConfigLoader where
  /-- The file, if there is one. -/
  path : Option String := none
  /-- The name before the environment variables that count. -/
  envName : String := Config.envName
  deriving DecidableEq, Repr

namespace ConfigLoader

/-- The paths that stand for a path where a directory lies: the extension of the format is added. -/
def extendedPaths (path : String) (f : LayerFormat) : List String :=
  f.extensions.map fun ext => String.ofList (Path.throughFileName path.toList) ++ "." ++ ext

/-- The text of a file.  Where a directory stands in its place, a file with the extension of the format
added is taken instead. -/
def fileText? (files : FileTree) (path : String) (f : LayerFormat) : Option String :=
  match files.read path with
  | .ok content => String.fromUTF8? content
  | .error _ =>
    ((extendedPaths path f).findSome? fun p => (files.read p).toOption).bind String.fromUTF8?

/-- The format of a file, by its extension. -/
def formatOf? (path : String) : Option LayerFormat :=
  (Path.extension? path.toList).bind LayerFormat.ofExtension?

/-- The layer of a file. -/
def fileLayer (lib : Libraries) (files : FileTree) (path : String) : Except ConfigError Layer :=
  if !files.hasPath path then .error (.fileNotFound path)
  else
    match formatOf? path with
    | none => .error (.unsupportedFormat path)
    | some f =>
      match (fileText? files path f).bind fun text => Layer.ofText? f text.toList with
      | none => .error (.unreadable (lib.fileDetail path (fileText? files path f)))
      | some layer => .ok layer

/-- All paths at which the file may lie. -/
def paths (l : ConfigLoader) : List String :=
  match l.path with
  | none => []
  | some path => path :: ((formatOf? path).toList.flatMap (extendedPaths path))

/-- The layers of a configuration, the lowest first. -/
def layers (l : ConfigLoader) (lib : Libraries) (files : FileTree) (env : Environment) :
    Except ConfigError (List Layer) := do
  let file ←
    match l.path with
    | none => pure []
    | some path => fileLayer lib files path
  return [({} : Config).layer, file, Environment.layer l.envName env]

/-- The configuration of layers, if it is valid. -/
def settle (lib : Libraries) (layers : List Layer) : Except LoadFailure Config :=
  match Layer.combine? lib layers with
  | none => .error .crash
  | some settings =>
    match Config.ofSettings? settings with
    | none => .error (.refused (.unreadable (lib.configDetail settings)))
    | some c => (c.validate.map fun _ => c).mapError .refused

/-- The configuration, or what keeps it from being loaded. -/
def resolve (l : ConfigLoader) (lib : Libraries) (files : FileTree) (env : Environment) :
    Except LoadFailure Config := do
  let layers ← (l.layers lib files env).mapError .refused
  settle lib layers

/-- The path as events show it. -/
def shownPath (l : ConfigLoader) : String :=
  match l.path with
  | none => "None"
  | some path => "Some(" ++ Text.quotedPath path ++ ")"

/-- Loads the configuration. -/
def load (l : ConfigLoader) (lib : Libraries) (files : FileTree) (env : Environment) :
    Logged (Except LoadFailure Config) :=
  match l.resolve lib files env with
  | .error e => pure (.error e)
  | .ok c => do
    Logged.emit (.configurationLoaded l.shownPath)
    return .ok c

end ConfigLoader

end PrefixMatch
