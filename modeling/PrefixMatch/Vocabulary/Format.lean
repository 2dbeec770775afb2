import PrefixMatch.Files.Path

/-!
# Vocabulary — Format

The three formats of a vocabulary, their names, and the format that the extension of a path stands
for.
-/

namespace PrefixMatch

/-- A format of a vocabulary. -/
inductive Format where
  /-- One entry per line. -/
  | lines
  /-- The keys of a JSON object. -/
  | json
  /-- The keys of a TOML document. -/
  | toml
  deriving DecidableEq, Repr, Inhabited

namespace Format

/-- The name under which a format is written in configurations and on the command line. -/
def name : Format → String
  | .lines => "lines"
  | .json => "json"
  | .toml => "toml"

/-- The name under which a format appears in events. -/
def label : Format → String
  | .lines => "Lines"
  | .json => "Json"
  | .toml => "Toml"

/-- The format of a name, which is matched exactly. -/
def ofName? : String → Option Format
  | "lines" => some .lines
  | "json" => some .json
  | "toml" => some .toml
  | _ => none

theorem ofName?_name (f : Format) : ofName? f.name = some f := by
  cases f <;> rfl

/-- The format that a file extension stands for. -/
def ofExtension? (ext : List Char) : Option Format :=
  match String.ofList ext with
  | "txt" | "lst" | "list" => some .lines
  | "json" => some .json
  | "toml" => some .toml
  | _ => none

/-- The format that a path is inferred to have. -/
def ofPath? (path : String) : Option Format :=
  (Path.extension? path.toList).bind ofExtension?

end Format

end PrefixMatch
