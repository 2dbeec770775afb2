import PrefixMatch.Json.Reader
import PrefixMatch.Layer.Overlay
import PrefixMatch.Toml.Tables
import PrefixMatch.Yaml.Document

/-!
# Layer — File

The layer that the text of a configuration file makes.  A text whose value at the top is no table makes an
empty layer.
-/

namespace PrefixMatch

/-- A format of configuration files. -/
inductive LayerFormat where
  | toml
  | json
  | yaml
  deriving DecidableEq, Repr

namespace LayerFormat

/-- The format that a file extension stands for. -/
def ofExtension? (ext : List Char) : Option LayerFormat :=
  match String.ofList ext with
  | "toml" => some .toml
  | "json" => some .json
  | "yaml" | "yml" => some .yaml
  | _ => none

/-- The extensions of files in a format. -/
def extensions : LayerFormat → List String
  | .toml => ["toml"]
  | .json => ["json"]
  | .yaml => ["yaml", "yml"]

end LayerFormat

namespace LayerValue

mutual

/-- A YAML value, unless it holds a number in one of the forms that are never finite. -/
def ofYaml? : Yaml.Node → Option LayerValue
  | .null => some .nil
  | .bool b => some (.bool b)
  | .int n => some (.int n)
  | .real written => (Number.readDouble? written.toList).map .float
  | .text s => some (.text s)
  | .array items => (ofYamlItems? items).map .array
  | .table entries => (ofYamlEntries? entries []).map .table
  | .invalid => some .nil

/-- The items of a YAML array. -/
def ofYamlItems? : List Yaml.Node → Option (List LayerValue)
  | [] => some []
  | n :: ns => do
    let v ← ofYaml? n
    let vs ← ofYamlItems? ns
    return v :: vs

/-- The entries of a YAML table, added to earlier ones. -/
def ofYamlEntries? : List (Yaml.Key × Yaml.Node) → List (String × LayerValue) →
    Option (List (String × LayerValue))
  | [], fields => some fields
  | e :: es, fields => do
    let (key, v) ← ofYamlEntry? e
    ofYamlEntries? es (Fields.put key v fields)

/-- An entry of a YAML table; an integer as key becomes its digits. -/
def ofYamlEntry? : Yaml.Key × Yaml.Node → Option (String × LayerValue)
  | (.text s, n) => (ofYaml? n).map fun v => (s, v)
  | (.int k, n) => (ofYaml? n).map fun v => (toString k, v)

end

end LayerValue

namespace Layer

/-- The layer of a YAML text, which holds one document at most. -/
def ofYaml? (cs : List Char) : Option Layer := do
  match ← Yaml.read? cs with
  | [] => return []
  | [root] =>
    let v ← LayerValue.ofYaml? root
    return v.fields
  | _ => failure

/-- The layer of a text in a format. -/
def ofText? (f : LayerFormat) (cs : List Char) : Option Layer :=
  match f with
  | .toml => (Toml.read? cs).map LayerValue.ofTomlFields
  | .json => (Json.read? cs).map fun j => (LayerValue.ofJson j).fields
  | .yaml => ofYaml? cs

end Layer

end PrefixMatch
