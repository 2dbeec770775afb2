import PrefixMatch.Proofs.Vocabulary.Formats

/-!
# Vocabulary — the entries of a text of lines

* `VocabularyLoader.mem_lineEntries_iff`: a word is an entry when it is a line of the text, and not one of
  white space that is skipped.
* `VocabularyLoader.parse_lines`: what follows from this for parsing, with carriage returns put before the
  newlines, with and without skipping, and for words that are put together again.
-/

namespace PrefixMatch.VocabularyLoader

variable {lib : Libraries} {l : VocabularyLoader} {origin text word : String} {S T : Finset String}

/-! ### The entries of a text -/

/-- Parsing a text gives a trie whose entries are the words of a set, each once. -/
def ParsesTo (l : VocabularyLoader) (lib : Libraries) (origin : String) (f : Format) (text : String)
    (S : Finset String) : Prop :=
  ∃ t, (l.parse lib origin f text).value = .ok t ∧ t.Lists S

/-- A line is skipped when blank lines are, and it holds nothing but white space. -/
def Skips (l : VocabularyLoader) (line : List Char) : Prop :=
  l.skipBlankLines = true ∧ ∀ c ∈ line, Text.isWhite c = true

theorem skips_iff {line : List Char} : l.Skips line ↔ (l.skipBlankLines && Text.isBlank line) = true := by
  rw [Bool.and_eq_true, Text.isBlank, List.all_eq_true, Skips]

/-- **The entries of a text are its lines**, without those that are skipped. -/
theorem mem_lineEntries_iff :
    word ∈ l.lineEntries text ↔ Text.IsLine text.toList word.toList ∧ ¬ l.Skips word.toList := by
  simp only [lineEntries, List.mem_map, List.mem_filter, Text.mem_lines_iff, Bool.not_eq_true',
    ← Bool.not_eq_true, ← skips_iff]
  constructor
  · rintro ⟨line, h, rfl⟩
    rw [String.toList_ofList]
    exact h
  · intro h
    exact ⟨word.toList, h, String.ofList_toList⟩

theorem parsesTo_of_words {f : Format} {words : List String} (h : l.words lib origin f text = .ok words) :
    l.ParsesTo lib origin f text S ↔ S = words.toFinset := by
  obtain ⟨t, ht, hholds, -⟩ := parse_of_words h
  constructor
  · rintro ⟨u, hu, -, rfl⟩
    cases ht.symm.trans hu
    exact hholds.lists.2
  · rintro rfl
    exact ⟨t, ht, hholds.lists⟩

theorem parsesTo_lines_iff : l.ParsesTo lib origin .lines text S ↔ S = (l.lineEntries text).toFinset :=
  parsesTo_of_words rfl

theorem exists_parsesTo_lines (l : VocabularyLoader) (lib : Libraries) (origin text : String) :
    ∃ S, l.ParsesTo lib origin .lines text S ∧
      ∀ word : String, word ∈ S ↔ Text.IsLine text.toList word.toList ∧ ¬ l.Skips word.toList := by
  refine ⟨_, parsesTo_lines_iff.mpr rfl, fun word => ?_⟩
  rw [List.mem_toFinset, mem_lineEntries_iff]

/-! ### Two texts, two loaders -/

theorem lineEntries_withReturns (h : '\r' ∉ text.toList) :
    l.lineEntries (String.ofList (Text.withReturns text.toList)) = l.lineEntries text := by
  rw [lineEntries, String.toList_ofList, Text.lines_withReturns h, lineEntries]

/-- Skipping takes the entries of white space away, and no others. -/
theorem mem_skipping_iff
    (hS : ({ l with skipBlankLines := true } : VocabularyLoader).ParsesTo lib origin .lines text S)
    (hT : ({ l with skipBlankLines := false } : VocabularyLoader).ParsesTo lib origin .lines text T) :
    word ∈ S ↔ word ∈ T ∧ ¬ ∀ c ∈ word.toList, Text.isWhite c = true := by
  rw [parsesTo_lines_iff] at hS hT
  simp [hS, hT, mem_lineEntries_iff, Skips]

theorem lineEntries_lineText_of_not_skip (h : l.skipBlankLines = false) {words : List String}
    (hwords : ∀ word ∈ words, '\n' ∉ word.toList ∧ word.toList.getLast? ≠ some '\r') :
    l.lineEntries (lineText words) = words := by
  simp [lineEntries, lines_lineText hwords, h]

/-- The settings for lines have no part in the other formats. -/
theorem parse_of_ne_lines (l : VocabularyLoader) (lib : Libraries) (skip : Bool) (origin text : String)
    {f : Format} (h : f ≠ .lines) :
    ({ l with skipBlankLines := skip } : VocabularyLoader).parse lib origin f text = l.parse lib origin f text := by
  cases f with
  | lines => exact absurd rfl h
  | json | toml => rfl

/-- **A vocabulary of lines holds just the lines of its text.**  Without carriage returns in the text, the
lines may as well end in a carriage return and a newline; skipping takes away the entries of white space, so
the empty word is none; and words that fit on lines are parsed back from their text. -/
theorem parse_lines (l : VocabularyLoader) (lib : Libraries) (origin : String) :
    (∀ text, ∃ S, l.ParsesTo lib origin .lines text S ∧
      ∀ word : String, word ∈ S ↔ Text.IsLine text.toList word.toList ∧ ¬ l.Skips word.toList) ∧
    (∀ text S, '\r' ∉ text.toList →
      (l.ParsesTo lib origin .lines (String.ofList (Text.withReturns text.toList)) S ↔
        l.ParsesTo lib origin .lines text S)) ∧
    (∀ text S T, ({ l with skipBlankLines := true } : VocabularyLoader).ParsesTo lib origin .lines text S →
      ({ l with skipBlankLines := false } : VocabularyLoader).ParsesTo lib origin .lines text T →
      (∀ word : String, word ∈ S ↔ word ∈ T ∧ ¬ ∀ c ∈ word.toList, Text.isWhite c = true) ∧ "" ∉ S) ∧
    (∀ words : List String,
      (∀ word ∈ words, '\n' ∉ word.toList ∧ word.toList.getLast? ≠ some '\r') →
      ({ l with skipBlankLines := false } : VocabularyLoader).ParsesTo lib origin .lines (lineText words)
        words.toFinset) ∧
    ∀ (f : Format) (text : String) (skip : Bool), f ≠ .lines →
      ({ l with skipBlankLines := skip } : VocabularyLoader).parse lib origin f text =
        l.parse lib origin f text := by
  refine ⟨l.exists_parsesTo_lines lib origin, ?returns, ?skipping, ?joined, ?others⟩
  case returns =>
    intro text S h
    rw [parsesTo_lines_iff, parsesTo_lines_iff, lineEntries_withReturns h]
  case skipping =>
    intro text S T hS hT
    refine ⟨fun word => mem_skipping_iff hS hT, fun hempty => ?_⟩
    -- the empty word holds nothing but white space
    exact ((mem_skipping_iff hS hT).mp hempty).2 nofun
  case joined =>
    intro words h
    rw [parsesTo_lines_iff, lineEntries_lineText_of_not_skip rfl h]
  case others =>
    intro f text skip h
    exact l.parse_of_ne_lines lib skip origin text h

/-- Two carriage returns before a newline and one at the end of the text, an em space as the whole of a
line, and the empty word. -/
theorem parse_lines_returned :
    (∃ S, ({} : VocabularyLoader).ParsesTo .plain "v" .lines "a\r\r\n\u2003\n\n b\r" S ∧ "a\r" ∈ S) ∧
    '\r' ∉ "a \n\u2003\n\nb".toList ∧
    ({ skipBlankLines := false } : VocabularyLoader).ParsesTo .plain "v" .lines "a \n\u2003\n\nb"
      {"a ", "\u2003", "", "b"} ∧
    (∃ S, ({} : VocabularyLoader).ParsesTo .plain "v" .lines "a \r\n\u2003\r\n\r\nb" S ∧
      "a " ∈ S ∧ "\u2003" ∉ S ∧ "" ∉ S) ∧
    (∀ word ∈ ["", "\r b"], '\n' ∉ word.toList ∧ word.toList.getLast? ≠ some '\r') ∧
    ({ skipBlankLines := false } : VocabularyLoader).ParsesTo .plain "v" .lines "\n\r b\n" {"", "\r b"} ∧
    Format.json ≠ .lines ∧
    ({ skipBlankLines := false } : VocabularyLoader).parse .plain "v" .json "\x7b\"\":1\x7d" =
      ({} : VocabularyLoader).parse .plain "v" .json "\x7b\"\":1\x7d" := by
  obtain ⟨hlines, hreturns, hskipping, hjoined, hothers⟩ := parse_lines {} .plain "v"
  have hnone : '\r' ∉ "a \n\u2003\n\nb".toList := by decide
  have hfits : ∀ word ∈ ["", "\r b"], '\n' ∉ word.toList ∧ word.toList.getLast? ≠ some '\r' := by decide
  have htext : lineText ["", "\r b"] = "\n\r b\n" := by rfl
  have hall : ({ skipBlankLines := false } : VocabularyLoader).ParsesTo .plain "v" .lines "a \n\u2003\n\nb"
      {"a ", "\u2003", "", "b"} := parsesTo_lines_iff.mpr (by decide)
  obtain ⟨S, hS, -⟩ := hlines "a \n\u2003\n\nb"
  obtain ⟨hkept, hempty⟩ := hskipping _ _ _ hS hall
  obtain ⟨R, hR, hmem⟩ := hlines "a\r\r\n\u2003\n\n b\r"
  have hreturned : Text.IsLine "a\r\r\n\u2003\n\n b\r".toList "a\r".toList :=
    .returned [] _ "\u2003\n\n b\r".toList rfl (.inl rfl) (by decide)
  have hblack : ∀ {word : String}, word.toList.head? = some 'a' →
      ¬ ∀ c ∈ word.toList, Text.isWhite c = true := fun h hwhite =>
    absurd (hwhite 'a' (List.mem_of_head? h)) (by decide)
  refine ⟨⟨R, hR, (hmem "a\r").mpr ⟨hreturned, fun h => hblack rfl h.2⟩⟩, hnone, hall,
    ⟨S, (hreturns _ _ hnone).mpr hS, (hkept "a ").mpr ⟨by decide, hblack rfl⟩, fun h => ?_, hempty⟩, hfits, ?_,
    nofun, hothers .json _ false nofun⟩
  · have hwhite : ∀ c ∈ "\u2003".toList, Text.isWhite c = true := List.forall_mem_singleton.mpr rfl
    exact ((hkept "\u2003").mp h).2 hwhite
  · rw [← htext]
    exact hjoined _ hfits

end PrefixMatch.VocabularyLoader
