import PrefixMatch.Proofs.Config.Layers
import PrefixMatch.Vocabulary.Loader

/-!
# Config — what a valid configuration promises

A loaded configuration is valid (`ConfigLoader.validate_of_load`).  If it names a vocabulary, then by a path
that is not empty and that its loader has a format for (`Config.names_usable_of_valid`).
-/

namespace PrefixMatch

/-! ### Checks -/

theorem VocabularySettings.validate_eq_ok_iff (v : VocabularySettings) :
    v.validate = .ok () ↔
      ∀ path, v.path = some path → path ≠ "" ∧ (v.format.or (Format.ofPath? path)).isSome = true := by
  rw [validate]
  cases hpath : v.path with
  | none => simp
  | some path =>
      by_cases hempty : path = ""
      · simp [hempty]
      · cases v.format with
        | none => simp [hempty, Option.isSome_iff_ne_none]
        | some f => simp [hempty]

namespace Config

variable {c : Config} {path : String}

/-- The vocabulary is checked first, and then the rest. -/
theorem validate_eq_ok_iff (c : Config) :
    c.validate = .ok () ↔ c.vocabulary.validate = .ok () ∧ c.log.validate = .ok () := by
  rw [validate]
  cases c.vocabulary.validate with
  | error e => simp [bind, Except.bind]
  | ok u => simp [bind, Except.bind]

/-- **A valid configuration names a usable vocabulary, or none.** -/
theorem names_usable_of_valid (h : c.validate = .ok ()) (hpath : c.vocabulary.path = some path) :
    path ≠ "" ∧ (VocabularyLoader.ofConfig c).formatFor? path ≠ none := by
  obtain ⟨hvocabulary, -⟩ := c.validate_eq_ok_iff.mp h
  obtain ⟨hne, hformat⟩ := c.vocabulary.validate_eq_ok_iff.mp hvocabulary path hpath
  exact ⟨hne, Option.isSome_iff_ne_none.mp hformat⟩

end Config

namespace ConfigLoader

theorem validate_of_load {l : ConfigLoader} {lib : Libraries} {files : FileTree} {env : Environment}
    {c : Config} (h : (l.load lib files env).value = .ok c) : c.validate = .ok () := by
  rw [value_load] at h
  cases hlayers : l.layers lib files env with
  | error e =>
      rw [resolve, hlayers] at h
      cases h
  | ok layers =>
      rw [resolve_of_layers hlayers] at h
      obtain ⟨-, -, -, hvalid⟩ := settle_eq_ok_iff.mp h
      exact hvalid

end ConfigLoader

end PrefixMatch
