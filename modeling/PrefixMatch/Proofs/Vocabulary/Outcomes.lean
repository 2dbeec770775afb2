import PrefixMatch.Proofs.Files.Tree
import PrefixMatch.Proofs.Vocabulary.Lines

/-!
# Vocabulary — how loading a file ends

What becomes of a file is settled in a fixed order: by the format, by what can be read of the file, and then
by its text.

* `VocabularyLoader.words_eq_error_iff`: a text is rejected when it is not valid in its format, and as JSON
  also when its value is no object.
* `VocabularyLoader.isOutcome_parse`: every other text is parsed, and the trie has the entries of the text.
* `VocabularyLoader.load_outcome`: loading a file fails for just one of these reasons, or gives this trie.
-/

namespace PrefixMatch

/-! ### What texts hold -/

/-- A text is valid in a format when it is a document of the format; any text is one of lines. -/
def Format.Valid (text : String) : Format → Prop
  | .lines => True
  | .json => ∃ value, Json.read? text.toList = some value
  | .toml => ∃ keys, Toml.rootKeys? text.toList = some keys

namespace VocabularyLoader

/-- A word is an entry of a text when it is a line of it that is not skipped, or a key at the top of the
document. -/
inductive HasEntry (l : VocabularyLoader) (text word : String) : Format → Prop where
  | line (hline : Text.IsLine text.toList word.toList) (hkept : ¬ l.Skips word.toList) :
      HasEntry l text word .lines
  | member (members : List (String × Json)) (hread : Json.read? text.toList = some (.object members))
      (hkey : word ∈ Fields.keys members) : HasEntry l text word .json
  | rootKey (keys : List String) (hread : Toml.rootKeys? text.toList = some keys) (hkey : word ∈ keys) :
      HasEntry l text word .toml

/-- Why a text is rejected. -/
inductive Rejects (lib : Libraries) (origin text : String) : Format → VocabularyError → Prop where
  | malformed (f : Format) (h : ¬ f.Valid text) :
      Rejects lib origin text f (.malformed origin (lib.vocabularyDetail f text))
  | notAMapping (value : Json) (hread : Json.read? text.toList = some value)
      (hvalue : ∀ members, value ≠ .object members) : Rejects lib origin text .json (.notAMapping origin)

variable {lib : Libraries} {l : VocabularyLoader} {files : FileTree} {path origin text word : String}
  {f : Format}
  {words : List String}

theorem words_eq_error_iff {e : VocabularyError} :
    l.words lib origin f text = .error e ↔ Rejects lib origin text f e := by
  constructor
  · intro h
    cases f with
    | lines => cases h
    | json =>
        rw [VocabularyLoader.words] at h
        split at h
        · next hread =>
          cases h
          exact .malformed _ (by simp [Format.Valid, hread])
        · cases h
        · next value hvalue hread =>
          cases h
          exact .notAMapping value hread hvalue
    | toml =>
        rw [VocabularyLoader.words] at h
        split at h
        · next hread =>
          cases h
          exact .malformed _ (by simp [Format.Valid, hread])
        · cases h
  · intro h
    cases h with
    | malformed f h =>
        cases f with
        | lines => exact absurd trivial h
        | json | toml =>
            simp only [Format.Valid, ← Option.ne_none_iff_exists', not_not] at h
            simp only [VocabularyLoader.words, h]
    | notAMapping value hread hvalue =>
        cases value with
        | object members => exact absurd rfl (hvalue members)
        | _ => simp only [VocabularyLoader.words, hread]

theorem words_json_eq_ok_iff :
    l.words lib origin .json text = .ok words ↔
      ∃ members, Json.read? text.toList = some (.object members) ∧ Fields.keys members = words := by
  rw [VocabularyLoader.words]
  split
  · next hread => simp [hread]
  · next members hread => simp [hread]
  · next value hvalue hread =>
    simp only [hread, Option.some.injEq, reduceCtorEq, false_iff, not_exists, not_and]
    intro members hmembers
    exact absurd hmembers (hvalue members)

theorem words_toml_eq_ok_iff :
    l.words lib origin .toml text = .ok words ↔ Toml.rootKeys? text.toList = some words := by
  rw [VocabularyLoader.words]
  cases Toml.rootKeys? text.toList with
  | none => simp
  | some keys => simp

/-- The words that a text is read as are its entries. -/
theorem mem_words_iff (h : l.words lib origin f text = .ok words) : word ∈ words ↔ l.HasEntry text word f := by
  cases f with
  | lines =>
      cases h
      rw [mem_lineEntries_iff]
      constructor
      · rintro ⟨hline, hkept⟩
        exact .line hline hkept
      · rintro ⟨hline, hkept⟩
        exact ⟨hline, hkept⟩
  | json =>
      obtain ⟨members, hread, rfl⟩ := words_json_eq_ok_iff.mp h
      constructor
      · intro hkey
        exact .member members hread hkey
      · rintro ⟨⟩
        next members' hread' hkey =>
        cases hread.symm.trans hread'
        exact hkey
  | toml =>
      have hread := words_toml_eq_ok_iff.mp h
      constructor
      · intro hkey
        exact .rootKey words hread hkey
      · rintro ⟨⟩
        next keys hread' hkey =>
        cases hread.symm.trans hread'
        exact hkey

/-! ### Parsing -/

/-- What parsing a text comes to: it is not valid in its format, or it is JSON without being an object, or
it gives a trie with the settings of the loader and the entries of the text. -/
structure IsOutcome (l : VocabularyLoader) (origin : String) (f : Format) (text : String)
    (result : Except VocabularyError Trie) : Prop where
  malformed : ∀ q, (∃ detail, result = .error (.malformed q detail)) ↔
    q = origin ∧ (f = .json ∨ f = .toml) ∧ ¬ f.Valid text
  notAMapping : ∀ q, result = .error (.notAMapping q) ↔
    q = origin ∧ f = .json ∧
      ∃ value, Json.read? text.toList = some value ∧ ∀ members, value ≠ .object members
  parsed : f.Valid text → (f = .json → ∃ members, Json.read? text.toList = some (.object members)) →
    ∃ t, result = .ok t ∧ t.settings = l.trieSettings ∧ t.entries.Nodup ∧
      ∀ word, word ∈ t.entries ↔ l.HasEntry text word f

theorem parse_eq_error_iff {e : VocabularyError} :
    (l.parse lib origin f text).value = .error e ↔ Rejects lib origin text f e := by
  rw [← words_eq_error_iff]
  cases hwords : l.words lib origin f text with
  | error d => rw [parse_of_error hwords, Logged.value_pure, Except.error.injEq, Except.error.injEq]
  | ok words =>
      obtain ⟨t, ht, -⟩ := parse_of_words hwords
      simp [ht]

theorem exists_parse_of_not_rejects (h : ∀ e, ¬ Rejects lib origin text f e) :
    ∃ t, (l.parse lib origin f text).value = .ok t ∧ t.settings = l.trieSettings ∧ t.entries.Nodup ∧
      ∀ word, word ∈ t.entries ↔ l.HasEntry text word f := by
  cases hwords : l.words lib origin f text with
  | error e => exact absurd (words_eq_error_iff.mp hwords) (h e)
  | ok words =>
      obtain ⟨t, ht, hholds, hs⟩ := parse_of_words hwords
      refine ⟨t, ht, hs, hholds.nodup_entries, fun word => ?_⟩
      rw [hholds.mem_entries_iff, List.mem_toFinset, mem_words_iff hwords]

/-- **Each text has one outcome.** -/
theorem isOutcome_parse (l : VocabularyLoader) (lib : Libraries) (origin : String) (f : Format)
    (text : String) : l.IsOutcome origin f text (l.parse lib origin f text).value where
  malformed q := by
    simp only [parse_eq_error_iff]
    constructor
    · rintro ⟨detail, ⟨f, h⟩⟩
      cases f with
      | lines => exact absurd trivial h
      | json => exact ⟨rfl, .inl rfl, h⟩
      | toml => exact ⟨rfl, .inr rfl, h⟩
    · rintro ⟨rfl, -, h⟩
      exact ⟨_, .malformed f h⟩
  notAMapping q := by
    rw [parse_eq_error_iff]
    constructor
    · rintro ⟨⟩
      next value hread hvalue => exact ⟨rfl, rfl, value, hread, hvalue⟩
    · rintro ⟨rfl, rfl, value, hread, hvalue⟩
      exact .notAMapping value hread hvalue
  parsed hvalid hobject := by
    refine exists_parse_of_not_rejects fun e h => ?_
    cases h with
    | malformed f h => exact h hvalid
    | notAMapping value hread hvalue =>
        obtain ⟨members, hmembers⟩ := hobject rfl
        exact hvalue members (Option.some.inj (hread.symm.trans hmembers))

/-! ### Loading -/

theorem formatFor?_eq_none_iff :
    l.formatFor? path = none ↔ l.format = none ∧ Format.ofPath? path = none :=
  Option.or_eq_none_iff

theorem formatFor?_eq_some_iff :
    l.formatFor? path = some f ↔
      l.format = some f ∨ l.format = none ∧ Format.ofPath? path = some f :=
  Option.or_eq_some_iff

theorem load_eq_unknownFormat_iff {q : String} :
    (l.load lib files path).value = .error (.unknownFormat q) ↔ q = path ∧ l.formatFor? path = none := by
  rw [load_eq_error_iff]
  constructor
  · rintro ⟨⟩
    · next hf => exact ⟨rfl, hf⟩
    · next f text hf htext hwords => cases words_eq_error_iff.mp hwords
  · rintro ⟨rfl, hf⟩
    exact .unknownFormat hf

theorem load_eq_unreadable_iff (hf : l.formatFor? path = some f) {q : String} {e : IoError} :
    (l.load lib files path).value = .error (.unreadable q e) ↔ q = path ∧ files.readText path = .error e := by
  rw [load_eq_error_iff]
  constructor
  · rintro ⟨⟩
    · next f' hf' htext => exact ⟨rfl, htext⟩
    · next f' text hf' htext hwords => cases words_eq_error_iff.mp hwords
  · rintro ⟨rfl, htext⟩
    exact .unreadable hf htext

/-- A text that was read is parsed. -/
theorem load_of_readText (hf : l.formatFor? path = some f) (htext : files.readText path = .ok text) :
    (l.load lib files path).value = (l.parse lib path f text).value := by
  simp only [load, hf, htext, Logged.value_bind]
  cases (l.parse lib path f text).value with
  | error e => rfl
  | ok t => rfl

/-- **Loading a file ends as its format, its bytes and its text say.**  Without a format nothing is read; a
file that cannot be read, or whose bytes are no text, is unreadable; and every other file ends as its text is
parsed.  Parsing lines never fails. -/
theorem load_outcome (l : VocabularyLoader) (lib : Libraries) (files : FileTree) (path : String) :
    (∀ q, (l.load lib files path).value = .error (.unknownFormat q) ↔
      q = path ∧ l.format = none ∧ Format.ofPath? path = none) ∧
    (∀ f, l.format = some f ∨ l.format = none ∧ Format.ofPath? path = some f →
      (∀ q e, (l.load lib files path).value = .error (.unreadable q e) ↔
        q = path ∧ (files.read path = .error e ∨
          ∃ content, files.read path = .ok content ∧ String.fromUTF8? content = none ∧ e = .notUtf8)) ∧
      ∀ content text, files.read path = .ok content → String.fromUTF8? content = some text →
        (l.load lib files path).value = (l.parse lib path f text).value ∧
          l.IsOutcome path f text (l.load lib files path).value) ∧
    ∀ origin text, ∃ t, (l.parse lib origin .lines text).value = .ok t := by
  refine ⟨fun q => ?unknown, fun f hf => ⟨fun q e => ?unreadable, fun content text hread htext => ?read⟩,
    fun origin text => ?lines⟩
  case unknown => rw [load_eq_unknownFormat_iff, formatFor?_eq_none_iff]
  case unreadable =>
    rw [load_eq_unreadable_iff (formatFor?_eq_some_iff.mpr hf), FileTree.readText_eq_error_iff]
  case read =>
    have hload : (l.load lib files path).value = (l.parse lib path f text).value :=
      load_of_readText (formatFor?_eq_some_iff.mpr hf) (FileTree.readText_eq_ok_iff.mpr ⟨content, hread, htext⟩)
    exact ⟨hload, hload ▸ l.isOutcome_parse lib path f text⟩
  case lines =>
    obtain ⟨t, ht, -⟩ := (l.isOutcome_parse lib origin .lines text).parsed trivial nofun
    exact ⟨t, ht⟩

/-- Two files below the root: a JSON array in a text file, and a byte that is no text. -/
def oddFiles : FileTree :=
  { entries := [(["w.txt"], .file "[1]".toUTF8), (["b.txt"], .file ⟨#[0xff]⟩)] }

/-- A format that overrides the extension, bytes that are no text, and a path without a format that leads
nowhere. -/
theorem load_outcome_overridden :
    oddFiles.read "w.txt" = .ok "[1]".toUTF8 ∧ String.fromUTF8? "[1]".toUTF8 = some "[1]" ∧
    (({ format := some .json } : VocabularyLoader).load .plain oddFiles "w.txt").value =
      .error (.notAMapping "w.txt") ∧
    (∃ t, (({} : VocabularyLoader).load .plain oddFiles "w.txt").value = .ok t ∧ "[1]" ∈ t.entries) ∧
    (({} : VocabularyLoader).load .plain oddFiles "b.txt").value = .error (.unreadable "b.txt" .notUtf8) ∧
    (({} : VocabularyLoader).load .plain oddFiles "missing").value = .error (.unknownFormat "missing") := by
  obtain ⟨-, hjson, -⟩ := load_outcome { format := some .json } .plain oddFiles "w.txt"
  obtain ⟨-, hlines, -⟩ := load_outcome {} .plain oddFiles "w.txt"
  obtain ⟨-, hbytes, -⟩ := load_outcome {} .plain oddFiles "b.txt"
  obtain ⟨hunknown, -⟩ := load_outcome {} .plain oddFiles "missing"
  have hread : oddFiles.read "w.txt" = .ok "[1]".toUTF8 := by rfl
  have htext : String.fromUTF8? "[1]".toUTF8 = some "[1]" := by decide
  have harray : Json.read? "[1]".toList = some (.array [.int 1]) := by rfl
  obtain ⟨t, ht, -, -, hmem⟩ := ((hlines .lines (.inr ⟨rfl, rfl⟩)).2 _ _ hread htext).2.parsed trivial nofun
  have hline : Text.IsLine "[1]".toList "[1]".toList :=
    .last [] _ rfl (.inl rfl) (by decide) (by decide)
  refine ⟨hread, htext, ?_, ⟨t, ht, ?_⟩, ?_, (hunknown "missing").mpr ⟨rfl, rfl, rfl⟩⟩
  · exact (((hjson .json (.inl rfl)).2 _ _ hread htext).2.notAMapping "w.txt").mpr
      ⟨rfl, rfl, _, harray, nofun⟩
  · refine (hmem "[1]").mpr (.line hline fun h => ?_)
    exact absurd (h.2 '1' (by decide)) (by decide)
  · have hbyte : String.fromUTF8? ⟨#[0xff]⟩ = none := by decide
    exact ((hbytes .lines (.inr ⟨rfl, rfl⟩)).1 _ _).mpr ⟨rfl, .inr ⟨_, rfl, hbyte, rfl⟩⟩

end VocabularyLoader

end PrefixMatch
