import PrefixMatch.KeyMaterial
import PrefixMatch.Proofs.Text.Quoted

/-!
# Key material — what the texts reveal

Two pieces of key material look alike when they are keys of the same length, or come from the same salt
(`KeyMaterial.LooksLike`).  Either text reveals this much and nothing else (`KeyMaterial.inspect_reveals`):
no byte of a key and no password has a part in it, and the length or the salt can be told from it.
-/

namespace PrefixMatch.KeyMaterial

/-- Keys with the same number of bytes, or passwords with the same salt; a key never looks like a password. -/
def LooksLike : KeyMaterial → KeyMaterial → Prop
  | .raw key, .raw key' => key.length = key'.length
  | .password salt _, .password salt' _ => salt = salt'
  | _, _ => False

/-- A layout: the fixed texts around the length of a key, and around a salt and what stands for a password. -/
structure Layout where
  beforeLength : String
  afterLength : String
  beforeSalt : String
  beforeSecret : String
  afterSecret : String

/-- The text of key material in a layout. -/
def Layout.text (l : Layout) : KeyMaterial → String
  | .raw key => l.beforeLength ++ toString key.length ++ l.afterLength
  | .password salt _ =>
    l.beforeSalt ++ Text.quoted salt ++ l.beforeSecret ++ Text.quoted redacted ++ l.afterSecret

/-- The layout on one line. -/
def oneLine : Layout where
  beforeLength := "Raw("
  afterLength := " bytes)"
  beforeSalt := "Password \x7b salt: "
  beforeSecret := ", password: "
  afterSecret := " \x7d"

/-- The layout with one field per line. -/
def fieldPerLine : Layout where
  beforeLength := "Raw(\n    "
  afterLength := " bytes,\n)"
  beforeSalt := "Password \x7b\n    salt: "
  beforeSecret := ",\n    password: "
  afterSecret := ",\n\x7d"

theorem inspect_eq (k : KeyMaterial) : k.inspect = oneLine.text k := by
  unfold inspect Layout.text
  rfl

theorem inspectLines_eq (k : KeyMaterial) : k.inspectLines = fieldPerLine.text k := by
  unfold inspectLines Layout.text
  rfl

/-! ### What a layout reveals -/

/-- Numbers are told apart by their decimal digits. -/
theorem toString_nat_inj {m n : Nat} : toString m = toString n ↔ m = n := by
  refine ⟨fun h => ?_, congrArg toString⟩
  rw [Nat.toString_eq_ofList_toDigits, Nat.toString_eq_ofList_toDigits] at h
  have hdigits := congrArg (Nat.ofDigitChars 10 · 0) (String.ofList_injective h)
  simpa using hdigits

/-- Texts that start differently differ. -/
theorem append_ne_append {s t : String} {c d : Char} (hs : s.toList.head? = some c)
    (ht : t.toList.head? = some d) (hcd : c ≠ d) (more more' : String) : s ++ more ≠ t ++ more' := by
  intro h
  have hhead := congrArg (·.toList.head?) h
  simp only [String.toList_append, List.head?_append, hs, ht, Option.some_or, Option.some.injEq] at hhead
  exact hcd hhead

/-- **In a layout that tells keys and passwords apart at its first character, key material has the same text
just when it looks alike.** -/
theorem Layout.text_eq_iff (l : Layout) {c d : Char} (hlength : l.beforeLength.toList.head? = some c)
    (hsalt : l.beforeSalt.toList.head? = some d) (hcd : c ≠ d) (k k' : KeyMaterial) :
    l.text k = l.text k' ↔ k.LooksLike k' := by
  cases k with
  | raw key =>
      cases k' with
      | raw key' =>
          rw [text, text, String.append_left_inj, String.append_right_inj]
          exact toString_nat_inj
      | password salt' _ =>
          simp only [text, String.append_assoc]
          exact iff_of_false (append_ne_append hlength hsalt hcd _ _) id
  | password salt _ =>
      cases k' with
      | raw key' =>
          simp only [text, String.append_assoc]
          exact iff_of_false (append_ne_append hsalt hlength hcd.symm _ _) id
      | password salt' _ =>
          simp only [text, String.append_left_inj, String.append_right_inj]
          exact Text.quoted_inj

/-- **The texts of key material reveal the length of a key or a salt, and nothing else.**  Two pieces of key
material have one text on one line just when they have one text with a field per line, and this is just when
they look alike. -/
theorem inspect_reveals (k k' : KeyMaterial) :
    (k.inspect = k'.inspect ↔ k.inspectLines = k'.inspectLines) ∧
    (k.inspectLines = k'.inspectLines ↔ k.LooksLike k') := by
  have hline : k.inspect = k'.inspect ↔ k.LooksLike k' := by
    rw [inspect_eq, inspect_eq]
    exact oneLine.text_eq_iff (c := 'R') (d := 'P') rfl rfl (by decide) k k'
  have hlines : k.inspectLines = k'.inspectLines ↔ k.LooksLike k' := by
    rw [inspectLines_eq, inspectLines_eq]
    exact fieldPerLine.text_eq_iff (c := 'R') (d := 'P') rfl rfl (by decide) k k'
  exact ⟨hline.trans hlines.symm, hlines⟩

end PrefixMatch.KeyMaterial
