import PrefixMatch.Config.Basic
import PrefixMatch.Layer.Overlay
import PrefixMatch.Number.Shortest
import PrefixMatch.Text.Lowercase

/-!
# Layer — Conversion

From the values of layers to a configuration.  Values convert to the type of their setting where that
makes sense: numbers and truth values to text, and numbers and certain words to truth values.
-/

namespace PrefixMatch

namespace LayerValue

/-- The value as text. -/
def text? : LayerValue → Option String
  | .text s => some s
  | .bool b => some (if b then "true" else "false")
  | .int n => some (toString n)
  | .float d => some d.text
  | _ => none

/-- The truth value that a word means. -/
def boolOfWord? (s : String) : Option Bool :=
  match String.ofList (Text.lower s.toList) with
  | "1" | "true" | "on" | "yes" => some true
  | "0" | "false" | "off" | "no" => some false
  | _ => none

/-- The value as a truth value; every number but zero is true. -/
def bool? : LayerValue → Option Bool
  | .bool b => some b
  | .int n => some (n != 0)
  | .float d => some !d.isZero
  | .text s => boolOfWord? s
  | _ => none

/-- The value as one of several names: a text, or the only key of a table. -/
def choice? : LayerValue → Option String
  | .text s => some s
  | .table [(name, _)] => some name
  | _ => none

/-- A value that may be missing. -/
def optional? {α : Type} (read : LayerValue → Option α) : LayerValue → Option (Option α)
  | .nil => some none
  | v => (read v).map some

/-- The fields of a group of settings: a table, or an array of the values in order. -/
def group? (names : List String) : LayerValue → Option (List (String × LayerValue))
  | .table fields => some fields
  | .array items => some (names.zip items)
  | _ => none

/-- The value of a field, or the default of one that is missing. -/
def fieldOr {α : Type} (read : LayerValue → Option α) (standard : α) (name : String)
    (fields : List (String × LayerValue)) : Option α :=
  match Fields.get? name fields with
  | none => some standard
  | some v => read v

end LayerValue

/-- The settings of a trie. -/
def TrieSettings.ofLayer? (v : LayerValue) : Option TrieSettings := do
  let fields ← v.group? ["match_policy", "completion_order"]
  let standard : TrieSettings := {}
  let matchPolicy ← LayerValue.fieldOr (fun v => v.choice?.bind MatchPolicy.ofName?)
    standard.matchPolicy "match_policy" fields
  let completionOrder ← LayerValue.fieldOr (fun v => v.choice?.bind CompletionOrder.ofName?)
    standard.completionOrder "completion_order" fields
  return { matchPolicy, completionOrder }

/-- Where the vocabulary comes from. -/
def VocabularySettings.ofLayer? (v : LayerValue) : Option VocabularySettings := do
  let fields ← v.group? ["path", "format", "skip_blank_lines"]
  let standard : VocabularySettings := {}
  let path ← LayerValue.fieldOr (LayerValue.optional? LayerValue.text?) standard.path "path" fields
  let format ← LayerValue.fieldOr (LayerValue.optional? fun v => v.choice?.bind Format.ofName?)
    standard.format "format" fields
  let skipBlankLines ← LayerValue.fieldOr LayerValue.bool? standard.skipBlankLines
    "skip_blank_lines" fields
  return { path, format, skipBlankLines }

/-- What is logged. -/
def LogSettings.ofLayer? (v : LayerValue) : Option LogSettings := do
  let fields ← v.group? ["level", "json", "source_location"]
  let standard : LogSettings := {}
  let level ← LayerValue.fieldOr LayerValue.text? standard.level "level" fields
  let json ← LayerValue.fieldOr LayerValue.bool? standard.json "json" fields
  let sourceLocation ← LayerValue.fieldOr LayerValue.bool? standard.sourceLocation
    "source_location" fields
  return { level, json, sourceLocation }

namespace Config

/-- The configuration that combined layers give. -/
def ofSettings? (settings : List (String × LayerValue)) : Option Config := do
  let trie ← LayerValue.fieldOr TrieSettings.ofLayer? {} "trie" settings
  let vocabulary ← LayerValue.fieldOr VocabularySettings.ofLayer? {} "vocabulary" settings
  let log ← LayerValue.fieldOr LogSettings.ofLayer? {} "log" settings
  return { trie, vocabulary, log }

/-- A configuration as a layer. -/
def layer (c : Config) : Layer :=
  let optionalText := fun (s : Option String) =>
    match s with
    | none => LayerValue.nil
    | some s => .text s
  [ ("trie", .table
      [ ("match_policy", .text c.trie.matchPolicy.name),
        ("completion_order", .text c.trie.completionOrder.name) ]),
    ("vocabulary", .table
      [ ("path", optionalText c.vocabulary.path),
        ("format", optionalText (c.vocabulary.format.map Format.name)),
        ("skip_blank_lines", .bool c.vocabulary.skipBlankLines) ]),
    ("log", .table
      [ ("level", .text c.log.level),
        ("json", .bool c.log.json),
        ("source_location", .bool c.log.sourceLocation) ]) ]

end Config

end PrefixMatch
