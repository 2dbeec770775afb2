import PrefixMatch.Event
import PrefixMatch.Fields
import PrefixMatch.Trie.Completions
import PrefixMatch.Trie.Settings
import PrefixMatch.Trie.Walk

/-!
# Trie — Basic

A vocabulary of words as a tree of characters, and the questions it answers: which word is the longest
that starts an input, and which words an input resolves to.  Characters are compared exactly as given.
-/

namespace PrefixMatch

/-- A vocabulary together with the settings under which it answers. -/
structure Trie where
  root : Node := {}
  settings : TrieSettings := {}
  deriving DecidableEq, Repr, Inhabited

namespace Trie

/-- The trie without entries, under the default settings. -/
def empty : Trie :=
  {}

/-- The trie without entries, under the given settings. -/
def withSettings (settings : TrieSettings) : Trie :=
  { settings }

/-- Whether the word is an entry. -/
def contains (t : Trie) (word : String) : Bool :=
  let w := t.root.walk word.toList
  w.consumedAll && w.node.terminal

/-- Enters a word. -/
def insert (t : Trie) (word : String) : Trie :=
  { t with root := t.root.enter word.toList }

/-- Whether entering the word makes a new entry. -/
def isNew (t : Trie) (word : String) : Bool :=
  !t.root.accepts word.toList

/-- Enters a word and says whether it is a new entry. -/
def insertLogged (t : Trie) (word : String) : Logged (Bool × Trie) := do
  let isNew := t.isNew word
  Logged.emit (.keyInserted word isNew)
  return (isNew, t.insert word)

/-- Enters several words in turn. -/
def extend (t : Trie) : List String → Logged Trie
  | [] => pure t
  | word :: words => do
    let (_, t) ← t.insertLogged word
    t.extend words

/-- The number of entries. -/
def size (t : Trie) : Nat :=
  t.root.countTerminals

/-- Whether there are no entries. -/
def isEmpty (t : Trie) : Bool :=
  t.root.children == .nil && !t.root.terminal

/-- The trie of the given words, with default settings. -/
def ofKeys (words : List String) : Logged Trie := do
  let t ← Trie.empty.extend words
  Logged.emit (.trieBuilt t.size)
  return t

/-- The trie of the keys of a table, whatever their values, with default settings. -/
def ofMap {α : Type} (table : List (String × α)) : Logged Trie :=
  ofKeys (Fields.keys table)

/-- Replaces the settings; the entries stay. -/
def setSettings (t : Trie) (settings : TrieSettings) : Trie :=
  { t with settings }

/-- All entries. -/
def entries (t : Trie) : List String :=
  t.root.strings.map String.ofList

/-- The entry that the match policy reports as the longest one at the start of the input.  The empty
word is never reported. -/
def longestPrefixMatch (t : Trie) (input : String) : Option String := do
  let w := t.root.walk input.toList
  let stop ←
    match t.settings.matchPolicy with
    | .stopAtDivergence => if w.advanced && w.node.terminal then some w.matched else none
    | .longestTerminal => w.longestTerminal
  (Text.before? stop input.toList).map String.ofList

/-- The enumeration of what follows a walk: empty unless the whole of a non-empty input was
followed. -/
def completionsAfter (w : Walk) (matched : List Char) : Completions :=
  if w.advanced && w.consumedAll then .start matched w.node else .empty

/-- The part of the input that a walk followed. -/
def matchedPart (w : Walk) (input : List Char) : List Char :=
  (Text.before? w.matched input).getD []

/-- The enumeration of the entries that properly extend the input. -/
def completions (t : Trie) (input : String) : Completions :=
  let w := t.root.walk input.toList
  completionsAfter w (matchedPart w input.toList)

/-- The entries that an input resolves to, in the order in which the tree gives them: the matched part
of the input if it is an entry, and the entries that extend the input if all of it was matched. -/
def resolve (t : Trie) (input : String) : List String :=
  let w := t.root.walk input.toList
  let matched := matchedPart w input.toList
  let own := if w.advanced && w.node.terminal then [String.ofList matched] else []
  own ++ (completionsAfter w matched).toList.map String.ofList

/-- The entries that an input resolves to, in the configured order. -/
def matchCompletions (t : Trie) (input : String) : List String :=
  match t.settings.completionOrder with
  | .unordered => t.resolve input
  | .sorted => (t.resolve input).mergeSort Text.bytesLE

end Trie

end PrefixMatch
