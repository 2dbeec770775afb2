import PrefixMatch.Config.Basic
import PrefixMatch.Json.Value

/-!
# Config — Strict

A configuration from a JSON value, without any conversion: each value must have exactly the type of
its setting.  A group of settings is an object, in which unknown members are ignored, or an array of
its values in order; whatever is missing keeps its default.
-/

namespace PrefixMatch

namespace Json

/-- The members of a group of settings with the given names. -/
def members? (names : List String) : Json → Option (List (String × Json))
  | .object members => some members
  | .array items => if items.length ≤ names.length then some (names.zip items) else none
  | _ => none

/-- The value of a member, or the default of one that is missing. -/
def memberOr {α : Type} (read : Json → Option α) (standard : α) (name : String)
    (members : List (String × Json)) : Option α :=
  match Fields.get? name members with
  | none => some standard
  | some j => read j

/-- A text. -/
def text? : Json → Option String
  | .text s => some s
  | _ => none

/-- A truth value. -/
def bool? : Json → Option Bool
  | .bool b => some b
  | _ => none

/-- One of several names, given as a text or as the only member of an object, with the value null. -/
def choice? : Json → Option String
  | .text s => some s
  | .object [(s, .null)] => some s
  | _ => none

/-- A value that may be null. -/
def optional? {α : Type} (read : Json → Option α) : Json → Option (Option α)
  | .null => some none
  | j => (read j).map some

end Json

/-- The settings of a trie. -/
def TrieSettings.ofJson? (j : Json) : Option TrieSettings := do
  let members ← j.members? ["match_policy", "completion_order"]
  let standard : TrieSettings := {}
  let matchPolicy ← Json.memberOr (fun v => v.choice?.bind MatchPolicy.ofName?) standard.matchPolicy
    "match_policy" members
  let completionOrder ← Json.memberOr (fun v => v.choice?.bind CompletionOrder.ofName?)
    standard.completionOrder "completion_order" members
  return { matchPolicy, completionOrder }

/-- Where the vocabulary comes from. -/
def VocabularySettings.ofJson? (j : Json) : Option VocabularySettings := do
  let members ← j.members? ["path", "format", "skip_blank_lines"]
  let standard : VocabularySettings := {}
  let path ← Json.memberOr (Json.optional? Json.text?) standard.path "path" members
  let format ← Json.memberOr (Json.optional? fun v => v.choice?.bind Format.ofName?) standard.format
    "format" members
  let skipBlankLines ← Json.memberOr Json.bool? standard.skipBlankLines "skip_blank_lines" members
  return { path, format, skipBlankLines }

/-- What is logged. -/
def LogSettings.ofJson? (j : Json) : Option LogSettings := do
  let members ← j.members? ["level", "json", "source_location"]
  let standard : LogSettings := {}
  let level ← Json.memberOr Json.text? standard.level "level" members
  let json ← Json.memberOr Json.bool? standard.json "json" members
  let sourceLocation ← Json.memberOr Json.bool? standard.sourceLocation "source_location" members
  return { level, json, sourceLocation }

/-- A configuration. -/
def Config.ofJson? (j : Json) : Option Config := do
  let members ← j.members? ["trie", "vocabulary", "log"]
  let trie ← Json.memberOr TrieSettings.ofJson? {} "trie" members
  let vocabulary ← Json.memberOr VocabularySettings.ofJson? {} "vocabulary" members
  let log ← Json.memberOr LogSettings.ofJson? {} "log" members
  return { trie, vocabulary, log }

end PrefixMatch
