import Mathlib.Data.List.Basic
import PrefixMatch.Error.Cause

/-!
# Error — what messages tell apart

The messages of different kinds of errors start differently (`not_start_of_heads`), so the wording of an
unknown format is that of nothing else (`Failure.eq_unknownFormat_of_message`).  Only a failure in words of
its own could say anything.
-/

namespace PrefixMatch

theorem toList_start_append (s t : String) : s.toList <+: (s ++ t).toList := by
  rw [String.toList_append]
  exact List.prefix_append _ _

/-- Texts with different first characters are not both the beginning of a text. -/
theorem not_start_of_heads {start start' cs : List Char} (h : start <+: cs)
    (hne : (start.head?.any fun c => start'.head?.any fun d => c != d) = true) : ¬ start' <+: cs := by
  intro h'
  cases start with
  | nil => cases hne
  | cons c start =>
      cases start' with
      | nil => cases hne
      | cons d start' =>
          obtain ⟨rest, rfl⟩ := h
          obtain ⟨rest', h'⟩ := h'
          rw [List.cons_append, List.cons_append, List.cons.injEq] at h'
          simp [h'.1] at hne

/-- No other vocabulary error has the wording of an unknown format. -/
theorem VocabularyError.eq_unknownFormat_of_message {e : VocabularyError} {q : String}
    (h : e.message = (VocabularyError.unknownFormat q).message) : e = .unknownFormat q := by
  have hunknown : "Cannot determine vocabulary format for ".toList <+: e.message.toList := by
    rw [h]
    exact toList_start_append _ q
  cases e with
  | unknownFormat p => exact congrArg _ ((String.append_right_inj _).mp h)
  | unreadable p cause =>
      have hstart : "Failed to read vocabulary ".toList <+: (unreadable p cause).message.toList :=
        (toList_start_append _ p).trans ((toList_start_append _ _).trans (toList_start_append _ _))
      exact absurd hstart (not_start_of_heads hunknown rfl)
  | malformed p detail =>
      have hstart : "Failed to parse vocabulary ".toList <+: (malformed p detail).message.toList :=
        (toList_start_append _ p).trans ((toList_start_append _ _).trans (toList_start_append _ _))
      exact absurd hstart (not_start_of_heads hunknown rfl)
  | notAMapping p =>
      have hstart : "Vocabulary ".toList <+: (notAMapping p).message.toList :=
        (toList_start_append _ p).trans (toList_start_append _ _)
      exact absurd hstart (not_start_of_heads hunknown rfl)

theorem Failure.eq_unknownFormat_of_message {e : Failure} {q : String}
    (h : e.message = (Failure.vocabulary (.unknownFormat q)).message) :
    e = .vocabulary (.unknownFormat q) ∨ ∃ text, e = .custom text := by
  have hvocabulary : "Vocabulary error: ".toList <+: e.message.toList := by
    rw [h]
    exact toList_start_append _ _
  cases e with
  | vocabulary e =>
      have he : e = .unknownFormat q :=
        VocabularyError.eq_unknownFormat_of_message ((String.append_right_inj _).mp h)
      exact .inl (congrArg _ he)
  | custom text => exact .inr ⟨text, rfl⟩
  | config e | cipher e | io e =>
      exact absurd (toList_start_append _ _) (not_start_of_heads hvocabulary rfl)

end PrefixMatch
