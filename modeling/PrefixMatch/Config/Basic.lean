import PrefixMatch.Error.Cause
import PrefixMatch.Event
import PrefixMatch.Trie.Settings
import PrefixMatch.Vocabulary.Format

/-!
# Config — Basic

The configuration: how the trie answers, where its vocabulary comes from, and what is logged.
`Config.validate` says what makes a configuration usable.
-/

namespace PrefixMatch

/-- Where the vocabulary comes from. -/
structure VocabularySettings where
  path : Option String := none
  /-- The format; inferred from the path when absent. -/
  format : Option Format := none
  /-- Whether blank lines of a vocabulary of lines are left out. -/
  skipBlankLines : Bool := true
  deriving DecidableEq, Repr, Inhabited

/-- What is logged, and how. -/
structure LogSettings where
  level : String := "warn"
  json : Bool := false
  sourceLocation : Bool := true
  deriving DecidableEq, Repr, Inhabited

/-- The configuration. -/
structure Config where
  trie : TrieSettings := {}
  vocabulary : VocabularySettings := {}
  log : LogSettings := {}
  deriving DecidableEq, Repr, Inhabited

namespace VocabularySettings

/-- A vocabulary needs no path, but a path must not be empty and its format must be known. -/
def validate (v : VocabularySettings) : Except ConfigError Unit :=
  match v.path with
  | none => .ok ()
  | some path =>
    if path.isEmpty then .error (.invalid "vocabulary.path must not be empty")
    else if v.format.isNone && (Format.ofPath? path).isNone then
      .error (.invalid ("vocabulary.format is required for " ++ path))
    else .ok ()

end VocabularySettings

namespace LogSettings

/-- The level must be one of the five names. -/
def validate (l : LogSettings) : Except ConfigError Unit :=
  match Level.ofName? l.level with
  | none => .error (.invalid ("Invalid log level: " ++ l.level))
  | some _ => .ok ()

end LogSettings

namespace Config

/-- A configuration is valid when its vocabulary and its log settings are, checked in this order. -/
def validate (c : Config) : Except ConfigError Unit := do
  c.vocabulary.validate
  c.log.validate

/-- The name before environment variables that override the configuration. -/
def envName : String := "NIIHAU"

end Config

end PrefixMatch
