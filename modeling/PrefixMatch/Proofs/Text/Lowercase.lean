import PrefixMatch.Proofs.Text.Reading
import PrefixMatch.Text.Lowercase

/-!
# Text — lower case piece by piece

The lower-case form of a sigma depends on the letters around it, and on nothing else does the form of a
character depend.  An underscore is no letter and hides none, so the lower-case form of a text is put together
from those of the pieces before and behind one (`lower_append_bar`).
-/

namespace PrefixMatch.Text

theorem isCased_bar : isCased '_' = false := by decide

theorem isCaseIgnorable_bar : isCaseIgnorable '_' = false := by decide

/-- No letter comes after a text when an underscore does. -/
theorem startsCased_append_bar (cs more : List Char) :
    startsCased (cs ++ '_' :: more) = startsCased cs := by
  rw [startsCased, dropWhile_append_stop isCaseIgnorable_bar, startsCased]
  cases cs.dropWhile isCaseIgnorable with
  | nil => exact isCased_bar
  | cons c rest => rfl

/-- An underscore keeps what is before it from what is behind it. -/
theorem lowerFrom_append_bar (inWord : Bool) (cs more : List Char) :
    lowerFrom inWord (cs ++ '_' :: more) = lowerFrom inWord cs ++ '_' :: lower more := by
  induction cs generalizing inWord with
  | nil => cases inWord <;> rfl
  | cons c cs ih =>
      rw [List.cons_append, lowerFrom, lowerFrom, lowerSigma, lowerSigma, startsCased_append_bar, ih,
        List.append_assoc]

/-- **Behind an underscore the lower-case form starts anew.** -/
theorem lower_append_bar (cs more : List Char) :
    lower (cs ++ '_' :: more) = lower cs ++ '_' :: lower more :=
  lowerFrom_append_bar false cs more

theorem lower_bar_cons (more : List Char) : lower ('_' :: more) = '_' :: lower more :=
  lower_append_bar [] more

/-- A character that is its own lower-case form stays in a text. -/
theorem mem_lower {c : Char} {cs : List Char} (hsigma : c ≠ 'Σ') (hc : lowerChar c = [c]) (h : c ∈ cs) :
    c ∈ lower cs := by
  have hfrom : ∀ inWord, c ∈ lowerFrom inWord cs := by
    induction cs with
    | nil => cases h
    | cons d cs ih =>
        intro inWord
        rw [lowerFrom, List.mem_append]
        rcases List.mem_cons.mp h with rfl | h
        · rw [if_neg hsigma, hc]
          exact .inl List.mem_cons_self
        · exact .inr (ih h _)
  exact hfrom false

end PrefixMatch.Text
