import PrefixMatch.Number.Reading
import PrefixMatch.Text.Hex

/-!
# Text — readers and what ends them

A reader takes a part from the start of a text and gives the text behind it.  `StopsAt c read` says that
the character `c` neither continues nor alters what the reader takes, so that a text that the reader takes
as a whole is taken in the same way in front of `c`.  Readers that stop at `c` can be put behind each
other, because each is stated as one equation.
-/

namespace PrefixMatch.Text

/-- The character `c` neither continues nor alters what a reader takes. -/
def StopsAt {α : Type} (c : Char) (read : List Char → Option (α × List Char)) : Prop :=
  ∀ cs more, read (cs ++ c :: more) = (read cs).map fun (a, rest) => (a, rest ++ c :: more)

/-- The character `c` neither continues nor alters what is skipped. -/
def SkipStopsAt (c : Char) (skip : List Char → Option (List Char)) : Prop :=
  ∀ cs more, skip (cs ++ c :: more) = (skip cs).map (· ++ c :: more)

/-- A text that a reader takes as a whole is taken as a whole in front of `c`. -/
theorem StopsAt.whole {α : Type} {c : Char} {read : List Char → Option (α × List Char)}
    (h : StopsAt c read) {cs : List Char} {a : α} (ha : read cs = some (a, [])) (more : List Char) :
    read (cs ++ c :: more) = some (a, c :: more) := by
  rw [h cs more, ha]
  rfl

/-! ### Runs of characters -/

theorem takeWhile_append_stop {p : Char → Bool} {c : Char} (hc : p c = false) (cs more : List Char) :
    (cs ++ c :: more).takeWhile p = cs.takeWhile p := by
  induction cs with
  | nil => simp [hc]
  | cons d ds ih => rw [List.cons_append, List.takeWhile_cons, List.takeWhile_cons, ih]

theorem dropWhile_append_stop {p : Char → Bool} {c : Char} (hc : p c = false) (cs more : List Char) :
    (cs ++ c :: more).dropWhile p = cs.dropWhile p ++ c :: more := by
  induction cs with
  | nil => simp [hc]
  | cons d ds ih =>
      rw [List.cons_append, List.dropWhile_cons, List.dropWhile_cons, ih]
      split
      · rfl
      · rfl

/-- What is left behind a run does not go on with it. -/
theorem head?_dropWhile (p : Char → Bool) (cs : List Char) : ∀ c ∈ (cs.dropWhile p).head?, p c = false := by
  induction cs with
  | nil => exact nofun
  | cons d ds ih =>
      rw [List.dropWhile_cons]
      split
      · exact ih
      · next hd =>
        rintro c ⟨⟩
        exact Bool.eq_false_iff.mpr hd

/-- A run ends where the text does not go on with it. -/
theorem takeWhile_append_end {p : Char → Bool} {cs rest : List Char} (hcs : ∀ c ∈ cs, p c = true)
    (hend : ∀ c ∈ rest.head?, p c = false) : (cs ++ rest).takeWhile p = cs := by
  rw [List.takeWhile_append_of_pos hcs]
  cases rest with
  | nil => exact List.append_nil cs
  | cons c rest => simp [hend c rfl]

theorem dropWhile_append_end {p : Char → Bool} {cs rest : List Char} (hcs : ∀ c ∈ cs, p c = true)
    (hend : ∀ c ∈ rest.head?, p c = false) : (cs ++ rest).dropWhile p = rest := by
  rw [List.dropWhile_append_of_pos hcs]
  cases rest with
  | nil => rfl
  | cons c rest => simp [hend c rfl]

/-- A word without `c` starts a text just when it starts the part in front of `c`. -/
theorem isPrefixOf_append_stop {word : List Char} {c : Char} (hc : c ∉ word) (cs more : List Char) :
    word.isPrefixOf (cs ++ c :: more) = word.isPrefixOf cs := by
  induction word generalizing cs with
  | nil => simp
  | cons w ws ih =>
      rw [List.mem_cons, not_or] at hc
      cases cs with
      | nil => simp [List.isPrefixOf, Ne.symm hc.1]
      | cons d ds => simp only [List.cons_append, List.isPrefixOf_cons_cons, ih hc.2]

/-! ### Signs -/

/-- A character that stands in no number. -/
structure EndsNumber (c : Char) : Prop where
  digit : c.isDigit = false
  sign : c ≠ '-' ∧ c ≠ '+'
  point : c ≠ '.'
  exponent : c ≠ 'e' ∧ c ≠ 'E'

theorem splitSign_append_stop {c : Char} (hc : EndsNumber c) (cs more : List Char) :
    Number.splitSign (cs ++ c :: more) =
      ((Number.splitSign cs).1, (Number.splitSign cs).2 ++ c :: more) := by
  cases cs with
  | nil => simp [Number.splitSign, hc.sign]
  | cons d ds =>
      by_cases hm : d = '-'
      · subst hm; rfl
      by_cases hp : d = '+'
      · subst hp; rfl
      simp [Number.splitSign, hm, hp]

/-! ### Characters by their numbers -/

/-- A character is found by its number. -/
@[simp] theorem charOfNat?_toNat (c : Char) : charOfNat? c.toNat = some c := by
  have h : c.toNat.isValidChar := c.valid
  rw [charOfNat?, dif_pos h]
  rfl

/-- A character that was found by a number has that number. -/
theorem toNat_of_charOfNat? {n : Nat} {c : Char} (h : charOfNat? n = some c) : c.toNat = n := by
  by_cases hn : n.isValidChar
  · rw [charOfNat?, dif_pos hn] at h
    cases h
    rfl
  · rw [charOfNat?, dif_neg hn] at h
    cases h

/-- Digits that have a value are digits each. -/
theorem isSome_of_digitsValue? {base : Nat} {value? : Char → Option Nat} {cs : List Char} {m n : Nat}
    (h : digitsValue? base value? cs m = some n) : ∀ c ∈ cs, (value? c).isSome = true := by
  induction cs generalizing m with
  | nil => exact fun c hc => absurd hc List.not_mem_nil
  | cons d ds ih =>
      obtain ⟨v, hv, hds⟩ := Option.bind_eq_some_iff.mp h
      intro c hc
      rcases List.mem_cons.mp hc with rfl | hc
      · rw [hv]; rfl
      · exact ih hds c hc

end PrefixMatch.Text
