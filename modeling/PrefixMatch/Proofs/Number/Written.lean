import PrefixMatch.Number.Shortest
import PrefixMatch.Proofs.Text.Reading

/-!
# Number — written forms

Not every text that is read as a number is the written form of that number.  An integer is written without a
plus sign and with no zero before its digits (`Number.toString_eq_iff`).  A text with a character that stands in
no number is read as none (`Number.readInt64?_of_mem`, `Number.readDouble?_of_mem`).
-/

namespace PrefixMatch

namespace Number

/-! ### Digits -/

variable {c : Char} {digits : List Char}

/-- A digit is the character of its value. -/
theorem digitChar_digitValue (hc : c.isDigit = true) : digitValue c < 10 ∧ (digitValue c).digitChar = c := by
  have hrange : 48 ≤ c.toNat ∧ c.toNat ≤ 57 := by
    simpa [Char.isDigit, UInt32.le_iff_toNat_le] using hc
  have hvalue : digitValue c = c.toNat - 48 := rfl
  have hlt : digitValue c < 10 := by omega
  refine ⟨hlt, Char.toNat_inj.mp ?_⟩
  rw [Nat.toNat_digitChar_of_lt_ten hlt]
  omega

/-- Digits that are read behind a number are written behind it. -/
theorem toDigits_append_digits {n : Nat} (hn : 0 < n) (hdigits : ∀ c ∈ digits, c.isDigit = true) :
    Nat.toDigits 10 n ++ digits = Nat.toDigits 10 (digits.foldl (fun n c => 10 * n + digitValue c) n) := by
  induction digits generalizing n with
  | nil => exact List.append_nil _
  | cons c digits ih =>
      obtain ⟨hc, hrest⟩ := List.forall_mem_cons.mp hdigits
      have hone : Nat.toDigits 10 n ++ [c] = Nat.toDigits 10 (10 * n + digitValue c) := by
        rw [← Nat.toDigits_append_toDigits (by decide) hn (digitChar_digitValue hc).1,
          Nat.toDigits_of_lt_base (digitChar_digitValue hc).1, (digitChar_digitValue hc).2]
      rw [List.append_cons, hone, ih (by omega) hrest, List.foldl_cons]

/-- A positive number is written without a zero in front. -/
theorem head?_toDigits {n : Nat} (hn : 0 < n) : (Nat.toDigits 10 n).head? ≠ some '0' := by
  induction n using Nat.strongRecOn with
  | ind n ih =>
      rw [Nat.toDigits_eq_if (by decide)]
      split
      · simp [Nat.pos_iff_ne_zero.mp hn]
      · next hge =>
        have hrest := ih (n / 10) (by omega) (by omega)
        obtain ⟨d, digits, hdigits⟩ :=
          List.exists_cons_of_ne_nil (Nat.toDigits_ne_nil (n := n / 10) (b := 10))
        rw [hdigits] at hrest ⊢
        exact hrest

/-- **Digits are written as they are read unless a zero stands in front of others.** -/
theorem toDigits_decimalValue (hne : digits ≠ []) (hdigits : ∀ c ∈ digits, c.isDigit = true) :
    Nat.toDigits 10 (decimalValue digits) = digits ↔ digits = ['0'] ∨ digits.head? ≠ some '0' := by
  obtain ⟨c, rest, rfl⟩ := List.exists_cons_of_ne_nil hne
  obtain ⟨hc, hrest⟩ := List.forall_mem_cons.mp hdigits
  obtain ⟨hlt, hchar⟩ := digitChar_digitValue hc
  rw [List.head?_cons, Ne, Option.some.injEq]
  constructor
  · intro heq
    by_cases hzero : c = '0'
    · subst hzero
      -- a number that is written with a zero in front is zero
      have hvalue : decimalValue ('0' :: rest) = 0 :=
        Nat.eq_zero_of_not_pos fun hpos => head?_toDigits hpos (by rw [heq]; rfl)
      rw [hvalue, Nat.toDigits_zero] at heq
      exact .inl heq.symm
    · exact .inr hzero
  · rintro (heq | hne)
    · cases heq
      rfl
    · have hpos : 0 < digitValue c := by
        refine Nat.pos_of_ne_zero fun hzero => hne ?_
        rw [← hchar, hzero]
        rfl
      have happend := toDigits_append_digits hpos hrest
      rw [Nat.toDigits_of_lt_base hlt, hchar] at happend
      rw [decimalValue, List.foldl_cons, Nat.mul_zero, Nat.zero_add, ← happend]
      rfl

/-! ### Integers -/

/-- A text that has no plus sign, and no zero before its digits unless it is just that. -/
def IsPlain (cs : List Char) : Prop :=
  cs = ['0'] ∨ cs.head? ≠ some '+' ∧ (splitSign cs).2.head? ≠ some '0'

instance (cs : List Char) : Decidable (IsPlain cs) :=
  inferInstanceAs (Decidable (_ ∨ _))

theorem toList_toString_natCast (n : Nat) : (toString (n : Int)).toList = Nat.toDigits 10 n := by
  rw [Int.toString_eq_repr, Int.repr_eq_if, if_pos (Int.natCast_nonneg n), Int.toNat_natCast, Nat.toList_repr]

theorem toList_toString_neg {n : Nat} (hn : 0 < n) :
    (toString (-(n : Int))).toList = '-' :: Nat.toDigits 10 n := by
  rw [Int.toString_eq_repr, Int.repr_eq_if, if_neg (by omega), Int.neg_neg, Int.toNat_natCast,
    String.toList_append, Nat.toList_repr]
  rfl

theorem toString_ne_empty (n : Int) : toString n ≠ "" := by
  intro h
  have hnil : (toString n).toList = [] := congrArg String.toList h
  rcases Int.eq_nat_or_neg n with ⟨m, rfl | rfl⟩
  · rw [toList_toString_natCast] at hnil
    exact Nat.toDigits_ne_nil hnil
  · rcases Nat.eq_zero_or_pos m with rfl | hm
    · cases hnil
    · rw [toList_toString_neg hm] at hnil
      cases hnil

/-- What is read as an integer is a sign and digits. -/
theorem readInt64?_eq_some {cs : List Char} {n : Int} (h : readInt64? cs = some n) :
    (splitSign cs).2 ≠ [] ∧ (∀ c ∈ (splitSign cs).2, c.isDigit = true) ∧
      n = if (splitSign cs).1 then -(decimalValue (splitSign cs).2 : Int)
        else decimalValue (splitSign cs).2 := by
  rw [readInt64?] at h
  simp only [Option.ite_none_left_eq_some, Option.ite_none_right_eq_some, Option.some.injEq, Bool.or_eq_true,
    not_or, List.isEmpty_iff, Bool.not_eq_true', Bool.not_eq_false, List.all_eq_true] at h
  exact ⟨h.1.1, h.1.2, h.2.2.symm⟩

/-- Digits behind a minus sign are written as they are unless they begin with a zero. -/
theorem toList_toString_neg_decimalValue (hne : digits ≠ []) (hdigits : ∀ c ∈ digits, c.isDigit = true) :
    (toString (-(decimalValue digits : Int))).toList = '-' :: digits ↔ digits.head? ≠ some '0' := by
  have hwritten := toDigits_decimalValue hne hdigits
  rcases Nat.eq_zero_or_pos (decimalValue digits) with hzero | hpos
  · -- no sign is written for zero
    rw [hzero, Nat.toDigits_zero] at hwritten
    rw [hzero]
    exact ⟨nofun, fun hhead => absurd (congrArg List.head? (hwritten.mpr (.inr hhead)).symm) hhead⟩
  · rw [toList_toString_neg hpos, List.cons.injEq, and_iff_right rfl]
    refine ⟨fun heq => ?_, fun hhead => hwritten.mpr (.inr hhead)⟩
    rw [← heq]
    exact head?_toDigits hpos

/-- **An integer is written as it is read just when it is plain.** -/
theorem toString_eq_iff {cs : List Char} {n : Int} (h : readInt64? cs = some n) :
    (toString n).toList = cs ↔ IsPlain cs := by
  obtain ⟨hne, hdigits, hn⟩ := readInt64?_eq_some h
  rw [hn, IsPlain]
  clear h hn
  revert hne hdigits
  fun_cases splitSign cs with
  | case1 digits =>
      intro hne hdigits
      rw [if_pos rfl, toList_toString_neg_decimalValue hne hdigits]
      simp
  | case2 digits =>
      intro hne hdigits
      rw [if_neg nofun, toList_toString_natCast]
      refine ⟨fun heq => ?_, fun hplain => ?_⟩
      · have hsign : '+' ∈ Nat.toDigits 10 (decimalValue digits) := by
          rw [heq]
          exact List.mem_cons_self
        exact absurd (Nat.isDigit_of_mem_toDigits (by decide) (by decide) hsign) (by decide)
      · rcases hplain with heq | hne
        · cases heq
        · exact absurd rfl hne.1
  | case3 cs hminus hplus =>
      intro hne hdigits
      rw [if_neg nofun, toList_toString_natCast, toDigits_decimalValue hne hdigits]
      refine or_congr_right (and_iff_right fun hhead => ?_).symm
      obtain ⟨c, rest, rfl⟩ := List.exists_cons_of_ne_nil hne
      cases hhead
      exact hplus _ rfl

example : IsPlain "-7".toList ∧ ¬ IsPlain "-0".toList ∧ ¬ IsPlain "+7".toList ∧ ¬ IsPlain "007".toList :=
  by decide

/-! ### Texts that spell no number -/

open Text (EndsNumber)

variable {cs : List Char}

/-- A character that is in no number is no sign. -/
theorem mem_splitSign (hc : EndsNumber c) (h : c ∈ cs) : c ∈ (splitSign cs).2 := by
  obtain ⟨before, after, rfl⟩ := List.append_of_mem h
  rw [Text.splitSign_append_stop hc]
  exact List.mem_append_right _ List.mem_cons_self

theorem not_all_isDigit (hc : EndsNumber c) (h : c ∈ cs) : cs.all Char.isDigit = false :=
  List.all_eq_false.mpr ⟨c, h, Bool.eq_false_iff.mp hc.digit⟩

theorem mem_dropWhile_isDigit (hc : EndsNumber c) (h : c ∈ cs) : c ∈ cs.dropWhile Char.isDigit := by
  obtain ⟨before, after, rfl⟩ := List.append_of_mem h
  rw [Text.dropWhile_append_stop hc.digit]
  exact List.mem_append_right _ List.mem_cons_self

/-- **A text with a character that is in no number is no integer.** -/
theorem readInt64?_of_mem (hc : EndsNumber c) (h : c ∈ cs) : readInt64? cs = none := by
  simp only [readInt64?, not_all_isDigit hc (mem_splitSign hc h), Bool.not_false, Bool.or_true, if_true]

/-- It is no exponent, either. -/
theorem readExponent?_of_mem (hc : EndsNumber c) (h : c ∈ cs) : readExponent? cs = none := by
  cases cs with
  | nil => cases h
  | cons letter cs =>
      rw [readExponent?]
      split
      · next hletter =>
        -- the letter is not the character, so it is behind it
        have hmem : c ∈ cs := by
          rcases List.mem_cons.mp h with rfl | hmem
          · exact absurd hletter (not_or.mpr hc.exponent)
          · exact hmem
        simp only [not_all_isDigit hc (mem_splitSign hc hmem), Bool.not_false, Bool.or_true, if_true]
      · rfl

/-- And it is no number with a fraction. -/
theorem readFraction?_of_mem (hc : EndsNumber c) (negative : Bool) (h : c ∈ cs) :
    readFraction? negative cs = none := by
  have hrest := mem_dropWhile_isDigit hc h
  rw [readFraction?]
  split
  next places rest hplaces =>
  -- what is read as the exponent has the character in it
  have hmem : c ∈ rest := by
    split at hplaces
    · next behind hpoint =>
      cases hplaces
      rw [hpoint] at hrest
      exact mem_dropWhile_isDigit hc ((List.mem_cons.mp hrest).resolve_left hc.point)
    · cases hplaces
      exact hrest
  simp only [readExponent?_of_mem hc hmem, Option.map_none, ite_self]

/-- A character that is in no number and in none of the words for one makes a text no number. -/
theorem readDouble?_of_mem (hc : EndsNumber c) (hlower : c.toLower = c)
    (hwords : ∀ word ∈ ["inf", "infinity", "nan"], c ∉ word.toList) (h : c ∈ cs) :
    readDouble? cs = none := by
  have hmem := mem_splitSign hc h
  have hne : ∀ word ∈ ["inf", "infinity", "nan"],
      String.ofList ((splitSign cs).2.map Char.toLower) ≠ word := by
    rintro word hword rfl
    refine hwords _ hword ?_
    rw [String.toList_ofList]
    exact hlower ▸ List.mem_map_of_mem hmem
  simp only [readDouble?, hne "inf" (by simp), hne "infinity" (by simp), hne "nan" (by simp), or_self, if_false,
    readFraction?_of_mem hc _ hmem]

end Number

/-! ### Numbers that are not integers -/

namespace Double

theorem positional_ne_nil (d : Nat) (p : Int) : positional d p ≠ [] := by
  have hdigits : Nat.toDigits 10 d ≠ [] := Nat.toDigits_ne_nil
  simp only [positional]
  split
  · exact List.append_ne_nil_of_left_ne_nil hdigits _
  split
  · simp
  · exact List.cons_ne_nil _ _

theorem text_ne_empty (d : Double) : d.text ≠ "" := by
  cases d with
  | nan => decide
  | infinite negative => cases negative <;> decide
  | finite negative m e =>
      simp only [text]
      split
      · simp
      · simp [positional_ne_nil]

end Double

end PrefixMatch
