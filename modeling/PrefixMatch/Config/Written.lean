import PrefixMatch.Config.Basic
import PrefixMatch.Toml.Written

/-!
# Config — Written

A configuration as a TOML document: one section for each group of settings.  A setting without a value
is left out.
-/

namespace PrefixMatch.Config

/-- A section: its name and the written values of its settings. -/
structure WrittenSection where
  name : String
  settings : List (String × String)
  deriving DecidableEq, Repr

/-- The written form of a truth value. -/
def writeBool (b : Bool) : String :=
  if b then "true" else "false"

/-- A setting that is written only when it has a value. -/
def writeOptional (name : String) : Option String → List (String × String)
  | none => []
  | some value => [(name, Toml.writeText value)]

/-- The sections of a configuration. -/
def writtenSections (c : Config) : List WrittenSection :=
  [ ⟨"trie",
      [ ("match_policy", Toml.writeText c.trie.matchPolicy.name),
        ("completion_order", Toml.writeText c.trie.completionOrder.name) ]⟩,
    ⟨"vocabulary",
      writeOptional "path" c.vocabulary.path ++
        writeOptional "format" (c.vocabulary.format.map Format.name) ++
        [("skip_blank_lines", writeBool c.vocabulary.skipBlankLines)]⟩,
    ⟨"log",
      [ ("level", Toml.writeText c.log.level),
        ("json", writeBool c.log.json),
        ("source_location", writeBool c.log.sourceLocation) ]⟩ ]

/-- A section as text. -/
def WrittenSection.text (s : WrittenSection) : String :=
  "[" ++ s.name ++ "]\n" ++
    String.join (s.settings.map fun (name, value) => name ++ " = " ++ value ++ "\n")

/-- The configuration as a TOML document. -/
def toToml (c : Config) : String :=
  "\n".intercalate (c.writtenSections.map WrittenSection.text)

end PrefixMatch.Config
