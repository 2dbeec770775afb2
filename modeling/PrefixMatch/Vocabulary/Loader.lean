import PrefixMatch.Config.Basic
import PrefixMatch.Files.Tree
import PrefixMatch.Json.Reader
import PrefixMatch.Libraries
import PrefixMatch.Text.Lines
import PrefixMatch.Toml.RootKeys
import PrefixMatch.Trie.Basic

/-!
# Vocabulary — Loader

From the text of a vocabulary to a trie.  Of a vocabulary of lines every line is an entry; of the two
formats with keys only the keys at the top count.
-/

namespace PrefixMatch

/-- How a vocabulary is read. -/
structure VocabularyLoader where
  /-- The format; inferred from the path when absent. -/
  format : Option Format := none
  skipBlankLines : Bool := true
  trieSettings : TrieSettings := {}
  deriving DecidableEq, Repr

namespace VocabularyLoader

/-- The loader that a configuration asks for. -/
def ofConfig (c : Config) : VocabularyLoader :=
  ⟨c.vocabulary.format, c.vocabulary.skipBlankLines, c.trie⟩

/-- The loader with a given format in place of an inferred one. -/
def withFormat (l : VocabularyLoader) (f : Format) : VocabularyLoader :=
  { l with format := some f }

/-- The entries among the lines of a text. -/
def lineEntries (l : VocabularyLoader) (contents : String) : List String :=
  ((Text.lines contents.toList).filter fun line => !(l.skipBlankLines && Text.isBlank line)).map
    String.ofList

/-- The words of a vocabulary in a given format; `origin` names it in errors. -/
def words (l : VocabularyLoader) (lib : Libraries) (origin : String) (f : Format) (contents : String) :
    Except VocabularyError (List String) :=
  match f with
  | .lines => .ok (l.lineEntries contents)
  | .json =>
    match Json.read? contents.toList with
    | none => .error (.malformed origin (lib.vocabularyDetail f contents))
    | some (.object members) => .ok (Fields.keys members)
    | some _ => .error (.notAMapping origin)
  | .toml =>
    match Toml.rootKeys? contents.toList with
    | none => .error (.malformed origin (lib.vocabularyDetail f contents))
    | some keys => .ok keys

/-- The trie of a vocabulary in a given format. -/
def parse (l : VocabularyLoader) (lib : Libraries) (origin : String) (f : Format) (contents : String) :
    Logged (Except VocabularyError Trie) :=
  match l.words lib origin f contents with
  | .error e => pure (.error e)
  | .ok words => do
    let t ← Trie.ofKeys words
    let t := t.setSettings l.trieSettings
    Logged.emit (.vocabularyParsed f t.size)
    return .ok t

/-- The format of a file: the loader's own, or the one inferred from the path. -/
def formatFor? (l : VocabularyLoader) (path : String) : Option Format :=
  l.format.or (Format.ofPath? path)

/-- The trie of a vocabulary file. -/
def load (l : VocabularyLoader) (lib : Libraries) (files : FileTree) (path : String) :
    Logged (Except VocabularyError Trie) :=
  match l.formatFor? path with
  | none => pure (.error (.unknownFormat path))
  | some f =>
    match files.readText path with
    | .error e => pure (.error (.unreadable path e))
    | .ok contents => do
      match ← l.parse lib path f contents with
      | .error e => return .error e
      | .ok t =>
        Logged.emit (.vocabularyLoaded path f t.size)
        return .ok t

end VocabularyLoader

end PrefixMatch
