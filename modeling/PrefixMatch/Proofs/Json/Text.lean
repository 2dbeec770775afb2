import PrefixMatch.Json.Text
import PrefixMatch.Json.Written
import PrefixMatch.Proofs.Text.Reading

/-!
# JSON — the written forms of a text

`Json.Spells cs raw` says that `raw`, between quotes, stands for the characters `cs`: each character for
itself, by the letter of its escape, or by one or two units of sixteen bits.  A text has many written
forms, and all of them are read back as the text (`readText?_of_spells`).  The writer picks one of them
(`spells_escape`).
-/

namespace PrefixMatch.Json

open Text (digitsValue? hexValue?)

/-- What stands between the quotes of a string, for each of its characters in one of the ways that there
are. -/
inductive Spells : List Char → List Char → Prop
  | nil : Spells [] []
  /-- A character that needs no escape. -/
  | plain {c : Char} {cs raw : List Char} (hc : 0x20 ≤ c.toNat) (hq : c ≠ '"') (hb : c ≠ '\\')
      (h : Spells cs raw) : Spells (c :: cs) (c :: raw)
  /-- An escape by a letter. -/
  | letter {c e : Char} {cs raw : List Char} (he : escaped? e = some c) (h : Spells cs raw) :
      Spells (c :: cs) ('\\' :: e :: raw)
  /-- A character by its number. -/
  | unit {c d₁ d₂ d₃ d₄ : Char} {cs raw : List Char}
      (hn : digitsValue? 16 hexValue? [d₁, d₂, d₃, d₄] 0 = some c.toNat) (h : Spells cs raw) :
      Spells (c :: cs) ('\\' :: 'u' :: d₁ :: d₂ :: d₃ :: d₄ :: raw)
  /-- A character beyond sixteen bits by two surrogates. -/
  | surrogates {c d₁ d₂ d₃ d₄ e₁ e₂ e₃ e₄ : Char} {high low : Nat} {cs raw : List Char}
      (hhigh : digitsValue? 16 hexValue? [d₁, d₂, d₃, d₄] 0 = some high)
      (hlow : digitsValue? 16 hexValue? [e₁, e₂, e₃, e₄] 0 = some low)
      (hh : 0xD800 ≤ high ∧ high ≤ 0xDBFF) (hl : 0xDC00 ≤ low ∧ low ≤ 0xDFFF)
      (hc : c.toNat = 0x10000 + (high - 0xD800) * 0x400 + (low - 0xDC00)) (h : Spells cs raw) :
      Spells (c :: cs)
        ('\\' :: 'u' :: d₁ :: d₂ :: d₃ :: d₄ :: '\\' :: 'u' :: e₁ :: e₂ :: e₃ :: e₄ :: raw)

/-! ### The extent of a string -/

/-- A character that ends no string and starts no escape belongs to the raw text. -/
theorem rawText?_cons {c : Char} (hq : c ≠ '"') (hb : c ≠ '\\') (cs : List Char) :
    rawText? (c :: cs) = (rawText? cs).map fun (raw, rest) => (c :: raw, rest) := by
  simp [rawText?, hb]

/-- A number's digits are no quotes and no backslashes. -/
theorem plain_of_hexValue? {c : Char} (h : (hexValue? c).isSome = true) : c ≠ '"' ∧ c ≠ '\\' := by
  constructor
  · rintro rfl; cases h
  · rintro rfl; cases h

/-- Four digits of a number belong to the raw text. -/
theorem rawText?_unit {d₁ d₂ d₃ d₄ : Char} {n : Nat}
    (hn : digitsValue? 16 hexValue? [d₁, d₂, d₃, d₄] 0 = some n) {cs raw rest : List Char}
    (h : rawText? cs = some (raw, rest)) :
    rawText? ('\\' :: 'u' :: d₁ :: d₂ :: d₃ :: d₄ :: cs) =
      some ('\\' :: 'u' :: d₁ :: d₂ :: d₃ :: d₄ :: raw, rest) := by
  have hd := fun c hc => plain_of_hexValue? (Text.isSome_of_digitsValue? hn c hc)
  simp only [List.forall_mem_cons] at hd
  obtain ⟨⟨hq₁, hb₁⟩, ⟨hq₂, hb₂⟩, ⟨hq₃, hb₃⟩, ⟨hq₄, hb₄⟩, -⟩ := hd
  rw [rawText?, rawText?_cons hq₁ hb₁, rawText?_cons hq₂ hb₂, rawText?_cons hq₃ hb₃,
    rawText?_cons hq₄ hb₄, h]
  rfl

theorem rawText?_of_spells {cs raw : List Char} (h : Spells cs raw) (rest : List Char) :
    rawText? (raw ++ '"' :: rest) = some (raw, rest) := by
  induction h with
  | nil => rfl
  | plain _ hq hb _ ih => rw [List.cons_append, rawText?_cons hq hb, ih]; rfl
  | letter _ _ ih => rw [List.cons_append, List.cons_append, rawText?, ih]; rfl
  | unit hn _ ih => exact rawText?_unit hn ih
  | surrogates hhigh hlow _ _ _ _ ih => exact rawText?_unit hhigh (rawText?_unit hlow ih)

/-! ### The characters of a string -/

/-- A unit that is no surrogate stands for its character, whatever follows. -/
theorem ofPieces?_unit (c : Char) (pieces : List Piece) :
    ofPieces? (.unit c.toNat :: pieces) = (ofPieces? pieces).map (c :: ·) := by
  -- the number of a character is no surrogate
  have hc : ¬ (0xD800 ≤ c.toNat ∧ c.toNat ≤ 0xDBFF) := by
    have hv : c.toNat.isValidChar := c.valid
    rcases hv with hv | hv <;> omega
  cases pieces with
  | nil => simp [ofPieces?]
  | cons p ps =>
      cases p with
      | char d =>
          simp only [ofPieces?, Text.charOfNat?_toNat, Option.bind_eq_bind, Option.bind_some,
            Option.pure_def]
          cases ofPieces? ps with
          | none => rfl
          | some more => rfl
      | unit n =>
          rw [ofPieces?, if_neg hc, Text.charOfNat?_toNat]
          cases ofPieces? (.unit n :: ps) with
          | none => rfl
          | some more => rfl

theorem pieces?_unit {d₁ d₂ d₃ d₄ : Char} {n : Nat}
    (hn : digitsValue? 16 hexValue? [d₁, d₂, d₃, d₄] 0 = some n) (raw : List Char) :
    pieces? ('\\' :: 'u' :: d₁ :: d₂ :: d₃ :: d₄ :: raw) = (pieces? raw).map (.unit n :: ·) := by
  rw [pieces?, hn]
  cases pieces? raw with
  | none => rfl
  | some more => rfl

theorem exists_pieces?_of_spells {cs raw : List Char} (h : Spells cs raw) :
    ∃ pieces, pieces? raw = some pieces ∧ ofPieces? pieces = some cs := by
  induction h with
  | nil => exact ⟨[], rfl, rfl⟩
  | @plain c cs raw hc hq hb _ ih =>
      obtain ⟨ps, hps, hcs⟩ := ih
      refine ⟨.char c :: ps, ?_, by simp [ofPieces?, hcs]⟩
      simp [pieces?, hb, hps, Nat.not_lt.mpr hc]
  | @letter c e cs raw he _ ih =>
      obtain ⟨ps, hps, hcs⟩ := ih
      have hu : e ≠ 'u' := by rintro rfl; cases he
      refine ⟨.char c :: ps, ?_, by simp [ofPieces?, hcs]⟩
      simp [pieces?, hu, he, hps]
  | @unit c d₁ d₂ d₃ d₄ cs raw hn _ ih =>
      obtain ⟨ps, hps, hcs⟩ := ih
      exact ⟨.unit c.toNat :: ps, by rw [pieces?_unit hn, hps]; rfl, by rw [ofPieces?_unit, hcs]; rfl⟩
  | @surrogates c d₁ d₂ d₃ d₄ e₁ e₂ e₃ e₄ high low cs raw hhigh hlow hh hl hc _ ih =>
      obtain ⟨ps, hps, hcs⟩ := ih
      refine ⟨.unit high :: .unit low :: ps, ?_, ?_⟩
      · rw [pieces?_unit hhigh, pieces?_unit hlow, hps]; rfl
      · -- two surrogates make one character
        rw [ofPieces?, if_pos hh, if_pos hl, ← hc, Text.charOfNat?_toNat, hcs]; rfl

/-- **Every written form of a text is read back as the text.** -/
theorem readText?_of_spells {cs raw : List Char} (h : Spells cs raw) (rest : List Char) :
    readText? (raw ++ '"' :: rest) = some (String.ofList cs, rest) := by
  obtain ⟨ps, hps, hcs⟩ := exists_pieces?_of_spells h
  rw [readText?, rawText?_of_spells h]
  simp only [Option.bind_eq_bind, Option.bind_some, hps, hcs, Option.pure_def]

/-! ### The writer -/

theorem hexValue?_hexDigit {n : Nat} (hn : n < 16) : hexValue? (hexDigit n) = some n := by
  revert n; decide

theorem spells_escapeChar (c : Char) {cs raw : List Char} (h : Spells cs raw) :
    Spells (c :: cs) (escapeChar c ++ raw) := by
  unfold escapeChar
  split
  · next hc => exact .letter (by rw [hc]; rfl) h
  split
  · next hc => exact .letter (by rw [hc]; rfl) h
  split
  · next hc => exact .letter (by rw [hc]; rfl) h
  split
  · next hc => exact .letter (by rw [hc]; rfl) h
  split
  · next hc => exact .letter (by rw [hc]; rfl) h
  split
  · next hc => exact .letter (by rw [hc]; rfl) h
  split
  · next hc => exact .letter (by rw [hc]; rfl) h
  split
  · next hc =>
    refine .unit ?_ h
    have hzero : hexValue? '0' = some 0 := rfl
    simp only [digitsValue?, hzero, hexValue?_hexDigit (show c.toNat / 16 < 16 by omega),
      hexValue?_hexDigit (show c.toNat % 16 < 16 by omega), Option.bind_some]
    exact congrArg some (by omega)
  · next hq hb _ _ _ _ _ hc => exact .plain (Nat.not_lt.mp hc) hq hb h

/-- The writer's form of a text is one of its written forms. -/
theorem spells_escape (cs : List Char) : Spells cs (escape cs) := by
  induction cs with
  | nil => exact .nil
  | cons c cs ih => exact spells_escapeChar c ih

end PrefixMatch.Json
