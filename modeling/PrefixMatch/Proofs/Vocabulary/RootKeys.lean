import PrefixMatch.Proofs.Json.Members
import PrefixMatch.Proofs.Toml.RootTable
import PrefixMatch.Proofs.Vocabulary.Formats
import PrefixMatch.Proofs.Vocabulary.Outcomes

/-!
# Vocabulary — the keys at the top

`Format.RootKeys text K` says which keys stand at the top of a document: the keys of the members of the
outermost object, as they are spelled and as often as they come, or the first keys of the fields and headers
of the lines.  What stands behind a key has no part in it.  Each accepted document has one set of such keys
(`VocabularyLoader.exists_rootKeys`, `Format.RootKeys.unique`), and it is all that the trie depends on
(`VocabularyLoader.parse_rootKeys`).
-/

namespace PrefixMatch

/-- The keys at the top of a document.  Lines have no keys. -/
def Format.RootKeys (text : String) (K : Finset String) : Format → Prop
  | .lines => False
  | .json => ∃ members, Json.RootMembers members text.toList ∧ (Fields.keys members).toFinset = K
  | .toml => ∃ lines, Toml.Exact.Layout lines (Toml.joinLineEnds (Toml.dropMark text.toList)) ∧
      ∀ key, key ∈ K ↔ Toml.NamesRoot lines key

/-- **A document has one set of keys at its top.** -/
theorem Format.RootKeys.unique {f : Format} {text : String} {K K' : Finset String}
    (h : f.RootKeys text K) (h' : f.RootKeys text K') : K = K' := by
  cases f with
  | lines => exact h.elim
  | json =>
      obtain ⟨members, hmembers, rfl⟩ := h
      obtain ⟨members', hmembers', rfl⟩ := h'
      rw [hmembers.unique hmembers']
  | toml =>
      obtain ⟨lines, hlines, hK⟩ := h
      obtain ⟨lines', hlines', hK'⟩ := h'
      ext key
      rw [hK, hK', hlines.unique hlines']

namespace VocabularyLoader

variable {lib : Libraries} {l : VocabularyLoader} {origin text : String} {f : Format} {words : List String}
  {t : Trie}

/-- The words of a document are the keys at its top. -/
theorem rootKeys_of_words (hf : f ≠ .lines) (h : l.words lib origin f text = .ok words) :
    f.RootKeys text words.toFinset := by
  cases f with
  | lines => exact absurd rfl hf
  | json =>
      obtain ⟨fields, hread, rfl⟩ := words_json_eq_ok_iff.mp h
      obtain ⟨members, hmembers, rfl⟩ := Json.rootMembers_of_read? hread
      refine ⟨members, hmembers, ?_⟩
      ext key
      rw [List.mem_toFinset, List.mem_toFinset, Fields.mem_keys_foldl_put]
      simp [Fields.keys]
  | toml =>
      obtain ⟨lines, hlines, -, hmem⟩ := Toml.rootKeys?_names (words_toml_eq_ok_iff.mp h)
      exact ⟨lines, hlines, fun key => List.mem_toFinset.trans (hmem key)⟩

/-- A document that was parsed has keys at its top, and the trie holds them. -/
theorem holds_of_parse (hf : f ≠ .lines) (h : (l.parse lib origin f text).value = .ok t) :
    ∃ K, f.RootKeys text K ∧ t.Holds K ∧ t.settings = l.trieSettings := by
  cases hwords : l.words lib origin f text with
  | error e =>
      rw [parse_of_error hwords] at h
      cases h
  | ok words =>
      obtain ⟨u, hu, hholds, hs⟩ := parse_of_words hwords
      cases hu.symm.trans h
      exact ⟨_, rootKeys_of_words hf hwords, hholds, hs⟩

/-- **Only the keys at the top count.**  A document that is accepted has one set of keys at its top, and these
are the entries of the trie, each once, in whatever order its nodes list their children.  Any two accepted
documents with the same keys at the top, in the same format or in both, give one tree up to this order, and
tries that answer alike. -/
theorem parse_rootKeys (l : VocabularyLoader) (lib : Libraries) (origin text : String) (f : Format) (t : Trie)
    (hf : f = .json ∨ f = .toml) (ht : (l.parse lib origin f text).value = .ok t) :
    (∃ K, f.RootKeys text K) ∧ ∀ K, f.RootKeys text K →
      (∀ t', t.Rearranged t' → t'.Lists K ∧ t'.size = K.card) ∧
      ∀ lib' origin' text' g u, (l.parse lib' origin' g text').value = .ok u → g.RootKeys text' K →
        t.Rearranged u ∧ ∀ t' u', t.Rearranged t' → u.Rearranged u' → t'.AnswersAlike u' := by
  have hf : f ≠ .lines := by rcases hf with rfl | rfl <;> decide
  obtain ⟨K, hK, hholds, hs⟩ := holds_of_parse hf ht
  refine ⟨⟨K, hK⟩, fun K' hK' => ?_⟩
  obtain rfl := hK.unique hK'
  refine ⟨fun t' ht' => ⟨(hholds.rearranged ht').lists, (hholds.rearranged ht').size_eq⟩,
    fun lib' origin' text' g u hu hKu => ?_⟩
  have hg : g ≠ .lines := by rintro rfl; exact hKu
  obtain ⟨Ku, hKu', hholdsu, hsu⟩ := holds_of_parse hg hu
  obtain rfl := hKu.unique hKu'
  have hsettings : t.settings = u.settings := hs.trans hsu.symm
  refine ⟨⟨(hholds.rearranged_iff hholdsu).mpr rfl, hsettings⟩, fun t' u' ht' hu' => ?_⟩
  exact (hholds.rearranged ht').answersAlike (hholdsu.rearranged hu')
    (ht'.settings.symm.trans (hsettings.trans hu'.settings))

/-- The keys "a" and "d", by a dotted key, a header below it and an array of tables in one text, and by an
escape, a repetition and nested objects in the other. -/
theorem parse_rootKeys_nested : ∃ t u,
    (({} : VocabularyLoader).parse .plain "v" .toml "a.b = 1\n[a.c]\n[[d]]\nx = [\"e\"]\n").value = .ok t ∧
    (({} : VocabularyLoader).parse .plain "w" .json
      "\x7b\"d\": \x7b\"x\": [1]\x7d, \"\\u0061\": 0, \"a\": \x7b\"b\": 2\x7d\x7d").value = .ok u ∧
    t.Lists {"a", "d"} ∧ t.size = 2 ∧ t.AnswersAlike u := by
  have htoml : ({} : VocabularyLoader).words .plain "v" .toml "a.b = 1\n[a.c]\n[[d]]\nx = [\"e\"]\n" =
      .ok ["a", "d"] := words_toml_eq_ok_iff.mpr (by decide +kernel)
  have hjson : ({} : VocabularyLoader).words .plain "w" .json
      "\x7b\"d\": \x7b\"x\": [1]\x7d, \"\\u0061\": 0, \"a\": \x7b\"b\": 2\x7d\x7d" = .ok ["d", "a"] :=
    words_json_eq_ok_iff.mpr ⟨_, by rfl, by rfl⟩
  obtain ⟨t, ht, -⟩ := parse_of_words htoml
  obtain ⟨u, hu, -⟩ := parse_of_words hjson
  have hkeys := rootKeys_of_words (by decide) htoml
  have hkeys' := rootKeys_of_words (by decide) hjson
  have hsame : (["d", "a"] : List String).toFinset = ["a", "d"].toFinset := by decide
  obtain ⟨hlists, halike⟩ := (parse_rootKeys {} .plain "v" _ .toml t (.inr rfl) ht).2 _ hkeys
  have hrefl : ∀ t : Trie, t.Rearranged t := fun t => ⟨⟨rfl, .refl _⟩, rfl⟩
  exact ⟨t, u, ht, hu, (hlists t (hrefl t)).1, (hlists t (hrefl t)).2,
    (halike .plain "w" _ .json u hu (hsame ▸ hkeys')).2 t u (hrefl t) (hrefl u)⟩

end VocabularyLoader

end PrefixMatch
