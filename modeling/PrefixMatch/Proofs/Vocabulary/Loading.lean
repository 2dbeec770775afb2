import PrefixMatch.Proofs.Trie.History
import PrefixMatch.Vocabulary.Loader

/-!
# Vocabulary — loading

A loader finds words in a file when it has a format for the path, the file can be read, and its text is
valid in the format (`VocabularyLoader.Finds`); otherwise it fails for one of these three reasons
(`VocabularyLoader.Fails`).  What it finds is what the trie that it loads holds, under the settings of the
loader (`load_of_finds`), and why it fails is what it says (`load_eq_error_iff`).  On the way there are only
events of loading, and none when it fails (`isLoading_of_mem_load`).
-/

namespace PrefixMatch

/-! ### Events of loading -/

/-- Whether an event is one of those that tell how a vocabulary is loaded. -/
def Event.isLoading : Event → Bool
  | .keyInserted .. | .trieBuilt .. | .vocabularyParsed .. | .vocabularyLoaded .. => true
  | _ => false

namespace Trie

theorem isLoading_of_mem_extend (t : Trie) (words : List String) :
    ∀ e ∈ (t.extend words).events, e.isLoading = true := by
  induction words generalizing t with
  | nil => exact fun _ he => absurd he List.not_mem_nil
  | cons word words ih =>
      rw [extend_cons, Logged.events_bind]
      exact List.forall_mem_append.mpr ⟨List.forall_mem_singleton.mpr rfl, ih _⟩

theorem isLoading_of_mem_ofKeys (words : List String) :
    ∀ e ∈ (ofKeys words).events, e.isLoading = true :=
  List.forall_mem_append.mpr
    ⟨isLoading_of_mem_extend _ words, List.forall_mem_singleton.mpr rfl⟩

end Trie

namespace VocabularyLoader

variable {lib : Libraries} {l : VocabularyLoader} {files : FileTree} {path origin text : String} {f : Format}
  {words : List String}

/-! ### Parsing -/

/-- **Words are parsed to a trie that holds them**, under the settings of the loader. -/
theorem parse_of_words (h : l.words lib origin f text = .ok words) :
    ∃ t, (l.parse lib origin f text).value = .ok t ∧ t.Holds words.toFinset ∧ t.settings = l.trieSettings := by
  refine ⟨(Trie.ofKeys words).value.setSettings l.trieSettings, ?_,
    (Trie.grows_ofKeys words).holds.setSettings l.trieSettings, rfl⟩
  rw [parse, h]
  rfl

theorem parse_of_error {e : VocabularyError} (h : l.words lib origin f text = .error e) :
    l.parse lib origin f text = pure (.error e) := by
  rw [parse, h]

theorem isLoading_of_mem_parse (l : VocabularyLoader) (lib : Libraries) (origin : String) (f : Format)
    (text : String) : ∀ e ∈ (l.parse lib origin f text).events, e.isLoading = true := by
  cases h : l.words lib origin f text with
  | error e =>
      rw [parse_of_error h]
      exact fun _ hmem => absurd hmem List.not_mem_nil
  | ok words =>
      rw [parse, h]
      refine List.forall_mem_append.mpr ⟨Trie.isLoading_of_mem_ofKeys words, ?_⟩
      exact List.forall_mem_singleton.mpr rfl

/-! ### Loading -/

/-- The words that a loader finds in a file. -/
def Finds (l : VocabularyLoader) (lib : Libraries) (files : FileTree) (path : String)
    (words : List String) : Prop :=
  ∃ f text, l.formatFor? path = some f ∧ files.readText path = .ok text ∧
    l.words lib path f text = .ok words

/-- What can go wrong with a file: no format is known for it, it cannot be read, or its text is not valid in
the format. -/
inductive Fails (l : VocabularyLoader) (lib : Libraries) (files : FileTree) (path : String) :
    VocabularyError → Prop where
  | unknownFormat (hf : l.formatFor? path = none) : Fails l lib files path (.unknownFormat path)
  | unreadable {f : Format} {e : IoError} (hf : l.formatFor? path = some f)
      (htext : files.readText path = .error e) : Fails l lib files path (.unreadable path e)
  | invalid {f : Format} {text : String} {e : VocabularyError} (hf : l.formatFor? path = some f)
      (htext : files.readText path = .ok text) (hwords : l.words lib path f text = .error e) :
      Fails l lib files path e

theorem finds_or_fails (l : VocabularyLoader) (lib : Libraries) (files : FileTree) (path : String) :
    (∃ words, l.Finds lib files path words) ∨ ∃ e, l.Fails lib files path e := by
  cases hf : l.formatFor? path with
  | none => exact .inr ⟨_, .unknownFormat hf⟩
  | some f =>
      cases htext : files.readText path with
      | error e => exact .inr ⟨_, .unreadable hf htext⟩
      | ok text =>
          cases hwords : l.words lib path f text with
          | error e => exact .inr ⟨e, .invalid hf htext hwords⟩
          | ok words => exact .inl ⟨words, f, text, hf, htext, hwords⟩

/-- **A loader loads the words that it finds.** -/
theorem load_of_finds (h : l.Finds lib files path words) :
    ∃ t, (l.load lib files path).value = .ok t ∧ t.Holds words.toFinset ∧ t.settings = l.trieSettings := by
  obtain ⟨f, text, hf, htext, hwords⟩ := h
  obtain ⟨t, ht, hholds, hs⟩ := parse_of_words hwords
  refine ⟨t, ?_, hholds, hs⟩
  simp only [load, hf, htext, Logged.value_bind, ht]
  rfl

/-- A loader that fails says why, and emits nothing. -/
theorem load_of_fails {e : VocabularyError} (h : l.Fails lib files path e) :
    l.load lib files path = pure (.error e) := by
  cases h with
  | unknownFormat hf => simp only [load, hf]
  | unreadable hf htext => simp only [load, hf, htext]
  | invalid hf htext hwords =>
      simp only [load, hf, htext, parse_of_error hwords]
      rfl

theorem load_eq_error_iff {e : VocabularyError} :
    (l.load lib files path).value = .error e ↔ l.Fails lib files path e := by
  refine ⟨fun he => ?_, fun h => by rw [load_of_fails h]; rfl⟩
  rcases l.finds_or_fails lib files path with ⟨words, h⟩ | ⟨d, h⟩
  · obtain ⟨t, ht, -⟩ := load_of_finds h
    exact absurd (ht.symm.trans he) nofun
  · rw [load_of_fails h] at he
    exact Except.error.inj he ▸ h

theorem isLoading_of_mem_load (l : VocabularyLoader) (lib : Libraries) (files : FileTree) (path : String) :
    ∀ e ∈ (l.load lib files path).events, e.isLoading = true := by
  rcases l.finds_or_fails lib files path with ⟨words, f, text, hf, htext, hwords⟩ | ⟨e, h⟩
  · obtain ⟨t, ht, -⟩ := parse_of_words hwords
    simp only [load, hf, htext, Logged.events_bind, ht]
    refine List.forall_mem_append.mpr ⟨l.isLoading_of_mem_parse lib path f text, ?_⟩
    exact List.forall_mem_singleton.mpr rfl
  · rw [load_of_fails h]
    exact fun _ hmem => absurd hmem List.not_mem_nil

end VocabularyLoader

end PrefixMatch
