import PrefixMatch.Proofs.Json.Object
import PrefixMatch.Proofs.Text.Lines
import PrefixMatch.Proofs.Toml.RootKeys
import PrefixMatch.Proofs.Trie.Canonical
import PrefixMatch.Proofs.Trie.Resolution
import PrefixMatch.Proofs.Vocabulary.Loading

/-!
# Vocabulary — three formats of one vocabulary

A set of words can be written as the keys of a JSON object, as the keys of a TOML document and, if its
words fit on lines, as a text of lines.

* `Format.exists_writes`: every set of words has such a text.
* `VocabularyLoader.words_of_writes`: each reader finds the words that were written.
* `VocabularyLoader.formats_agree`: parsing gives tries with just these words as entries, which are one
  tree and answer alike.
-/

namespace PrefixMatch

/-! ### Answers -/

namespace Trie

/-- Two tries give the same answers: the same lookups, and the same words as completions, in the same
order where the order is specified. -/
structure AnswersAlike (t u : Trie) : Prop where
  contains : ∀ word, t.contains word = u.contains word
  isNew : ∀ word, t.isNew word = u.isNew word
  size : t.size = u.size
  isEmpty : t.isEmpty = u.isEmpty
  longestPrefixMatch : ∀ input, t.longestPrefixMatch input = u.longestPrefixMatch input
  completions : ∀ input, ((t.completions input).toList).Perm (u.completions input).toList
  matchCompletions : ∀ input, (t.matchCompletions input).Perm (u.matchCompletions input)
  sorted : t.settings.completionOrder = .sorted →
    ∀ input, t.matchCompletions input = u.matchCompletions input

/-- The entries of a trie are the words of a set, each once. -/
def Lists (t : Trie) (S : Finset String) : Prop :=
  t.entries.Nodup ∧ t.entries.toFinset = S

namespace Holds

variable {t u : Trie} {S : Finset String}

theorem lists (h : t.Holds S) : t.Lists S := by
  refine ⟨h.nodup_entries, ?_⟩
  ext word
  rw [List.mem_toFinset, h.mem_entries_iff]

/-- **Tries that hold the same words under the same settings answer alike.** -/
theorem answersAlike (h : t.Holds S) (hu : u.Holds S) (hs : t.settings = u.settings) :
    t.AnswersAlike u where
  contains word := by rw [Bool.eq_iff_iff, h.contains_iff, hu.contains_iff]
  isNew word := by rw [Bool.eq_iff_iff, h.isNew_iff, hu.isNew_iff]
  size := by rw [h.size_eq, hu.size_eq]
  isEmpty := by rw [Bool.eq_iff_iff, h.isEmpty_iff, hu.isEmpty_iff]
  longestPrefixMatch input := by
    ext word
    rw [h.longestPrefixMatch_iff, hu.longestPrefixMatch_iff, hs]
  completions input := by
    rw [List.perm_ext_iff_of_nodup (nodup_completions h.distinct input)
      (nodup_completions hu.distinct input)]
    intro w
    have hw : w = (String.ofList w).toList := String.toList_ofList.symm
    rw [hw, h.mem_completions_iff, hu.mem_completions_iff]
  matchCompletions input := by
    rw [List.perm_ext_iff_of_nodup (h.nodup_matchCompletions input) (hu.nodup_matchCompletions input)]
    intro word
    rw [h.mem_matchCompletions_iff, hu.mem_matchCompletions_iff]
  sorted ho input := h.matchCompletions_eq hu input ho (hs ▸ ho)

end Holds

end Trie

/-! ### The written forms of a vocabulary -/

/-- A word that a line of a text can hold: it is not cut, it does not lose its end, and it is not taken
for a blank line. -/
structure FitsLine (word : String) : Prop where
  newline : '\n' ∉ word.toList
  ending : word.toList.getLast? ≠ some '\r'
  blank : Text.isBlank word.toList = false

/-- Words as lines, each followed by a newline. -/
def lineText (words : List String) : String :=
  String.ofList ((words.map String.toList).map (· ++ ['\n'])).flatten

/-- Words without newlines that do not end in a carriage return are the lines of their text. -/
theorem lines_lineText {words : List String}
    (h : ∀ word ∈ words, '\n' ∉ word.toList ∧ word.toList.getLast? ≠ some '\r') :
    Text.lines (lineText words).toList = words.map String.toList := by
  rw [lineText, String.toList_ofList]
  refine Text.lines_flatten fun p hp => ?_
  obtain ⟨word, hword, rfl⟩ := List.mem_map.mp hp
  exact h word hword

/-- A text that writes a set of words in a format: as the keys of an object, as the quoted keys of a
document, or as lines. -/
def Format.Writes (K : Finset String) (text : String) : Format → Prop
  | .json => ∃ keys : List String, keys.Nodup ∧ keys.toFinset = K ∧ Json.KeysObject keys text.toList
  | .toml => ∃ keys : List String, keys.Nodup ∧ keys.toFinset = K ∧ Toml.KeysDocument keys text.toList
  | .lines =>
    (∀ word ∈ K, FitsLine word) ∧ ∃ words : List String, words.toFinset = K ∧ text = lineText words

/-- The writers of both formats with keys escape any text, so every set of words can be written in these,
and in lines when its words fit. -/
theorem Format.exists_writes (f : Format) (K : Finset String)
    (h : f = .lines → ∀ word ∈ K, FitsLine word) : ∃ text, f.Writes K text := by
  cases f with
  | json =>
      let member : String → Json.MemberText := fun key => ⟨Json.escape key.toList, ['0'], [], [], [], []⟩
      have hrenders : List.Forall₂ Json.MemberText.Renders K.toList (K.toList.map member) := by
        rw [List.forall₂_map_right_iff, List.forall₂_same]
        exact fun key _ => ⟨Json.spells_escape key.toList, ⟨.int 0, rfl⟩, by simp [member]⟩
      refine ⟨String.ofList _, K.toList, K.nodup_toList, K.toList_toFinset, _, [], [], [], hrenders, ?_,
        String.toList_ofList⟩
      simp
  | toml =>
      let row : String → List Char × List Char := fun key => (Toml.escapeBasic key.toList, ['0'])
      have hrows : List.Forall₂
          (fun key row => Toml.Spells '"' key.toList row.1 ∧ Toml.IsScalarText row.2)
          K.toList (K.toList.map row) := by
        rw [List.forall₂_map_right_iff, List.forall₂_same]
        exact fun key _ => ⟨Toml.spells_escapeBasic key.toList, by simp [row], by simp [row], .int 0, rfl⟩
      exact ⟨String.ofList _, K.toList, K.nodup_toList, K.toList_toFinset, _, hrows,
        String.toList_ofList⟩
  | lines => exact ⟨_, h rfl, K.toList, K.toList_toFinset, rfl⟩

namespace VocabularyLoader

theorem lineEntries_lineText (l : VocabularyLoader) {words : List String}
    (h : ∀ word ∈ words, FitsLine word) : l.lineEntries (lineText words) = words := by
  have hlines := lines_lineText fun word hword => ⟨(h word hword).newline, (h word hword).ending⟩
  have hkept : (words.map String.toList).filter (fun line => !(l.skipBlankLines && Text.isBlank line)) =
      words.map String.toList := by
    refine List.filter_eq_self.mpr fun p hp => ?_
    obtain ⟨word, hword, rfl⟩ := List.mem_map.mp hp
    rw [(h word hword).blank, Bool.and_false, Bool.not_false]
  rw [lineEntries, hlines, hkept, List.map_map]
  exact (List.map_congr_left fun word _ => String.ofList_toList).trans (List.map_id words)

/-- **Each reader finds the words that were written.** -/
theorem words_of_writes (l : VocabularyLoader) (lib : Libraries) (origin : String) {f : Format}
    {K : Finset String} {text : String} (h : f.Writes K text) :
    ∃ words, l.words lib origin f text = .ok words ∧ words.toFinset = K := by
  cases f with
  | json =>
      obtain ⟨keys, hd, hK, hkeys⟩ := h
      obtain ⟨members, rfl, hread⟩ := Json.read?_of_keysObject hkeys hd
      exact ⟨Fields.keys members, by rw [words, hread], hK⟩
  | toml =>
      obtain ⟨keys, hd, hK, hkeys⟩ := h
      exact ⟨keys, by rw [words, Toml.rootKeys?_of_keysDocument hkeys hd], hK⟩
  | lines =>
      obtain ⟨hfits, words, hK, rfl⟩ := h
      have hwords : ∀ word ∈ words, FitsLine word := fun word hword =>
        hfits word (hK ▸ List.mem_toFinset.mpr hword)
      exact ⟨words, by rw [VocabularyLoader.words, l.lineEntries_lineText hwords], hK⟩

/-- Parsing a text that writes a set of words gives a trie that holds them. -/
theorem parse_of_writes (l : VocabularyLoader) (lib : Libraries) (origin : String) {f : Format}
    {K : Finset String} {text : String} (h : f.Writes K text) :
    ∃ t, (l.parse lib origin f text).value = .ok t ∧ t.Holds K ∧ t.settings = l.trieSettings := by
  obtain ⟨words, hwords, rfl⟩ := l.words_of_writes lib origin h
  exact parse_of_words hwords

/-- **The formats agree.**  Every set of words can be written in each format, in lines when its words fit.  Any
two texts that write the same set of words, in any two formats, are parsed to tries whose entries are just these
words.  The two tries are one tree, with the children of every node compared as a map, and they answer alike. -/
theorem formats_agree (l : VocabularyLoader) (lib : Libraries) (origin : String) (K : Finset String) :
    (∀ f : Format, (f = .lines → ∀ word ∈ K, FitsLine word) → ∃ text, f.Writes K text) ∧
    ∀ (f g : Format) (text text' : String), f.Writes K text → g.Writes K text' →
      ∃ t u, (l.parse lib origin f text).value = .ok t ∧ (l.parse lib origin g text').value = .ok u ∧
        t.Lists K ∧ u.Lists K ∧ t.Rearranged u ∧ t.AnswersAlike u := by
  refine ⟨fun f hlines => f.exists_writes K hlines, fun f g text text' hf hg => ?_⟩
  obtain ⟨t, ht, hholds, hs⟩ := l.parse_of_writes lib origin hf
  obtain ⟨u, hu, hholds', hs'⟩ := l.parse_of_writes lib origin hg
  have hsettings : t.settings = u.settings := hs.trans hs'.symm
  exact ⟨t, u, ht, hu, hholds.lists, hholds'.lists, ⟨(hholds.rearranged_iff hholds').mpr rfl, hsettings⟩,
    hholds.answersAlike hholds' hsettings⟩

/-- A word beyond sixteen bits and the empty word, by surrogates and blanks in one text and by one number
in the other. -/
theorem formats_agree_escaped :
    Format.json.Writes {"😀", ""} "\x7b \"\\uD83D\\ude00\" : null,\"\":\"x\"\x7d" ∧
    Format.toml.Writes {"😀", ""} "\"\" = 1979-05-27\n\"\\U0001F600\" = '\"'\n" ∧
    ∃ t u, (({} : VocabularyLoader).parse .plain "j" .json
        "\x7b \"\\uD83D\\ude00\" : null,\"\":\"x\"\x7d").value = .ok t ∧
      (({} : VocabularyLoader).parse .plain "j" .toml
        "\"\" = 1979-05-27\n\"\\U0001F600\" = '\"'\n").value = .ok u ∧
      t.Lists {"😀", ""} ∧ u.Lists {"😀", ""} ∧ t.Rearranged u ∧ t.AnswersAlike u := by
  have hjson : Format.json.Writes {"😀", ""}
      "\x7b \"\\uD83D\\ude00\" : null,\"\":\"x\"\x7d" := by
    refine ⟨["😀", ""], by decide, by decide,
      [⟨"\\uD83D\\ude00".toList, "null".toList, [' '], [' '], [' '], []⟩,
        ⟨[], "\"x\"".toList, [], [], [], []⟩], [], [], [], .cons ?_ (.cons ?_ .nil),
      List.all_eq_true.mp rfl, rfl⟩
    · exact ⟨.surrogates rfl rfl (by decide) (by decide) rfl .nil, ⟨.null, rfl⟩,
        List.all_eq_true.mp rfl⟩
    · exact ⟨.nil, ⟨.text "x", rfl⟩, List.all_eq_true.mp rfl⟩
  have htoml : Format.toml.Writes {"😀", ""} "\"\" = 1979-05-27\n\"\\U0001F600\" = '\"'\n" := by
    refine ⟨["", "😀"], by decide, by decide,
      [([], "1979-05-27".toList), ("\\U0001F600".toList, "'\"'".toList)],
      .cons ⟨.nil, ?_⟩ (.cons ⟨.escape (e := "U0001F600".toList) rfl (.eight rfl rfl) .nil, ?_⟩ .nil), rfl⟩
    · exact ⟨by decide, by decide, .moment "1979-05-27", rfl⟩
    · exact ⟨by decide, by decide, .text "\"", rfl⟩
  obtain ⟨-, hagree⟩ := formats_agree {} .plain "j" {"😀", ""}
  exact ⟨hjson, htoml, hagree .json .toml _ _ hjson htoml⟩

end VocabularyLoader

end PrefixMatch
