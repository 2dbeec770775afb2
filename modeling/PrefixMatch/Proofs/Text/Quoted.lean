import PrefixMatch.Proofs.Text.Reading
import PrefixMatch.Text.Quoted

/-!
# Text — quoted texts are told apart

What a quoted text shows of a character is read back whatever follows it (`shown?_quotedChar`): a backslash
starts just the escapes, and the number in an escape ends at its closing brace.  So no two texts are quoted
alike (`quoted_inj`).
-/

namespace PrefixMatch.Text

/-! ### Hexadecimal digits -/

theorem digitsValue?_append (base : Nat) (value? : Char → Option Nat) (cs ds : List Char) (n : Nat) :
    digitsValue? base value? (cs ++ ds) n =
      (digitsValue? base value? cs n).bind (digitsValue? base value? ds) := by
  induction cs generalizing n with
  | nil => rfl
  | cons c cs ih =>
      rw [List.cons_append, digitsValue?, digitsValue?, Option.bind_assoc]
      simp only [ih]

theorem hexValue?_digitChar {d : Nat} (h : d < 16) : hexValue? d.digitChar = some d := by
  have hall : ∀ d : Fin 16, hexValue? d.1.digitChar = some d.1 := by decide
  exact hall ⟨d, h⟩

/-- **The hexadecimal digits of a number spell it.** -/
theorem digitsValue?_hexDigits (n : Nat) : digitsValue? 16 hexValue? (hexDigits n) 0 = some n := by
  induction n using Nat.strongRecOn with
  | ind n ih =>
      rw [hexDigits, Nat.toDigits_eq_if (by decide)]
      split
      · next h => simp [digitsValue?, hexValue?_digitChar h]
      · have hlast : n % 16 < 16 := Nat.mod_lt n (by decide)
        have hmore := ih (n / 16) (by omega)
        rw [hexDigits] at hmore
        rw [digitsValue?_append, hmore]
        simp only [Option.bind_some, digitsValue?, hexValue?_digitChar hlast, Option.some.injEq]
        omega

theorem ne_brace_of_mem_hexDigits (n : Nat) : ∀ c ∈ hexDigits n, (c != '\x7d') = true := by
  induction n using Nat.strongRecOn with
  | ind n ih =>
      have hall : ∀ d : Fin 16, (d.1.digitChar != '\x7d') = true := by decide
      rw [hexDigits, Nat.toDigits_eq_if (by decide)]
      split
      · next h => exact List.forall_mem_singleton.mpr (hall ⟨n, h⟩)
      · refine List.forall_mem_append.mpr ⟨ih (n / 16) (by omega), ?_⟩
        exact List.forall_mem_singleton.mpr (hall ⟨n % 16, Nat.mod_lt n (by decide)⟩)

/-! ### Reading back -/

/-- The character that stands for another one behind a backslash. -/
def escaped? : Char → Option Char
  | '0' => some '\x00'
  | 't' => some '\t'
  | 'r' => some '\r'
  | 'n' => some '\n'
  | '\\' => some '\\'
  | '"' => some '"'
  | '\'' => some '\''
  | _ => none

/-- The first character that a quoted text shows, and what stands behind it.  A quote shows none: it ends the
text. -/
def shown? : List Char → Option (Char × List Char)
  | '\\' :: 'u' :: '\x7b' :: cs =>
    ((digitsValue? 16 hexValue? (cs.takeWhile (· != '\x7d')) 0).bind charOfNat?).map fun c =>
      (c, (cs.dropWhile (· != '\x7d')).drop 1)
  | '\\' :: c :: cs => (escaped? c).map fun c => (c, cs)
  | '"' :: _ => none
  | c :: cs => some (c, cs)
  | [] => none

/-- A character that is not escaped shows itself. -/
theorem shown?_cons {c : Char} (hslash : c ≠ '\\') (hquote : c ≠ '"') (rest : List Char) :
    shown? (c :: rest) = some (c, rest) := by
  rw [shown?]
  · exact fun _ h => absurd h hslash
  · exact fun _ _ h => absurd h hslash
  · exact hquote

theorem shown?_number (c : Char) (rest : List Char) :
    shown? (['\\', 'u', '\x7b'] ++ hexDigits c.toNat ++ ['\x7d'] ++ rest) = some (c, rest) := by
  have hbrace : ∀ d ∈ ('\x7d' :: rest).head?, (d != '\x7d') = false := by simp
  have htake := takeWhile_append_end (ne_brace_of_mem_hexDigits c.toNat) hbrace
  have hdrop := dropWhile_append_end (ne_brace_of_mem_hexDigits c.toNat) hbrace
  simp only [List.cons_append, List.nil_append, List.append_assoc, shown?, htake, hdrop,
    digitsValue?_hexDigits, Option.bind_some, charOfNat?_toNat, Option.map_some, List.drop_succ_cons,
    List.drop_zero]

/-- **What is shown of a character is read back**, whatever follows it. -/
theorem shown?_quotedChar (apostrophe : Bool) (c : Char) (rest : List Char) :
    shown? (quotedChar apostrophe c ++ rest) = some (c, rest) := by
  rw [quotedChar]
  split
  · next h => rw [h]; rfl
  split
  · next h => rw [h]; rfl
  split
  · next h => rw [h]; rfl
  split
  · next h => rw [h]; rfl
  split
  · next h => rw [h]; rfl
  split
  · next h => rw [h]; rfl
  next hslash hquote =>
  split
  · next h =>
    rw [h]
    cases apostrophe <;> rfl
  split
  · exact shown?_number c rest
  · exact shown?_cons hslash hquote rest

/-! ### Whole texts -/

theorem flatMap_quotedChar_inj (apostrophe : Bool) {s t : List Char}
    (h : s.flatMap (quotedChar apostrophe) = t.flatMap (quotedChar apostrophe)) : s = t := by
  induction s generalizing t with
  | nil =>
      cases t with
      | nil => rfl
      | cons d t =>
          -- nothing is shown of no text
          have hd := shown?_quotedChar apostrophe d (t.flatMap (quotedChar apostrophe))
          rw [← List.flatMap_cons, ← h] at hd
          cases hd
  | cons c s ih =>
      have hc := shown?_quotedChar apostrophe c (s.flatMap (quotedChar apostrophe))
      rw [← List.flatMap_cons, h] at hc
      cases t with
      | nil => cases hc
      | cons d t =>
          rw [List.flatMap_cons, shown?_quotedChar] at hc
          obtain ⟨rfl, hrest⟩ := Prod.mk.inj (Option.some.inj hc)
          rw [ih hrest.symm]

/-- **No two texts are quoted alike.** -/
theorem quoted_inj {s t : String} : quoted s = quoted t ↔ s = t := by
  refine ⟨fun h => ?_, congrArg quoted⟩
  have h := List.append_cancel_right (List.cons.inj (String.ofList_injective h)).2
  exact String.toList_inj.mp (flatMap_quotedChar_inj false h)

end PrefixMatch.Text
