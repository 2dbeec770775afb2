import PrefixMatch.Proofs.Text.Reading
import PrefixMatch.Toml.Text
import PrefixMatch.Toml.Written

/-!
# Toml — the written forms of a text

`Toml.Spells mark cs raw` says that `raw`, between two marks, stands for the characters `cs`, and
`Toml.SpellsLong mark run cs raw` says the same of a long string, after `run` marks that belong to the
text.  Both are read back as the text (`readText?_of_spells`, `readText?_of_spellsLong`): a short string
ends at the first mark that no escape holds, a long one at the first three marks in a row, because fewer
than three belong to the text.  Whatever form the writer picks, it is one of these, so each text is read
back from its written form (`readText?_writeText`).
-/

namespace PrefixMatch.Toml

open Text (digitsValue? hexValue?)

/-! ### Escapes -/

/-- What may stand behind a backslash for a character: a letter, or the number of the character in four
or in eight digits. -/
inductive IsEscape (c : Char) : List Char → Prop
  | letter {e : Char} (he : escaped? e = some c) : IsEscape c [e]
  | four {ds : List Char} (hl : ds.length = 4) (hn : digitsValue? 16 hexValue? ds 0 = some c.toNat) :
      IsEscape c ('u' :: ds)
  | eight {ds : List Char} (hl : ds.length = 8) (hn : digitsValue? 16 hexValue? ds 0 = some c.toNat) :
      IsEscape c ('U' :: ds)

theorem numbered?_append {c : Char} {ds : List Char} (hn : digitsValue? 16 hexValue? ds 0 = some c.toNat)
    (more : List Char) : numbered? ds.length (ds ++ more) = some (c, more) := by
  have hlen : ¬ (ds ++ more).length < ds.length := by simp
  simp only [numbered?, Text.takeHex?, if_neg hlen, List.take_left', List.drop_left', hn, Option.map_some,
    Option.bind_eq_bind, Option.bind_some, Text.charOfNat?_toNat, Option.pure_def]

theorem escape?_cons {d : Char} (hu : d ≠ 'u') (hU : d ≠ 'U') (cs : List Char) :
    escape? (d :: cs) = (escaped? d).map (·, cs) := by
  unfold escape?
  split
  · next h => cases h; exact absurd rfl hu
  · next h => cases h; exact absurd rfl hU
  · next h => cases h; rfl
  · next h => cases h

theorem escape?_of_isEscape {c : Char} {e : List Char} (h : IsEscape c e) (more : List Char) :
    escape? (e ++ more) = some (c, more) := by
  cases h with
  | @letter e he =>
      have hu : e ≠ 'u' := by rintro rfl; cases he
      have hU : e ≠ 'U' := by rintro rfl; cases he
      rw [List.cons_append, escape?_cons hu hU, he]
      rfl
  | four hl hn =>
      rw [List.cons_append, escape?, ← hl]
      exact numbered?_append hn more
  | eight hl hn =>
      rw [List.cons_append, escape?, ← hl]
      exact numbered?_append hn more

/-- An escape does not continue a line. -/
theorem continued?_of_isEscape {c : Char} {e : List Char} (h : IsEscape c e) (more : List Char) :
    continued? (e ++ more) = none := by
  have hhead : ∀ d ds, isSpace d = false → d ≠ '\n' → continued? (d :: ds) = none := by
    intro d ds hs hn
    simp [continued?, hs, hn]
  cases h with
  | @letter e he =>
      refine hhead e more ?_ ?_
      · cases hs : isSpace e with
        | false => rfl
        | true =>
            simp only [isSpace, Bool.or_eq_true, beq_iff_eq] at hs
            rcases hs with rfl | rfl
            · cases he
            · cases he
      · rintro rfl; cases he
  | four => exact hhead 'u' _ rfl (by decide)
  | eight => exact hhead 'U' _ rfl (by decide)

theorem isPlain_of_hexValue? {c : Char} (h : (hexValue? c).isSome = true) : isPlain c = true := by
  have hrange : '0' ≤ c ∧ c ≤ '9' ∨ 'a' ≤ c ∧ c ≤ 'f' ∨ 'A' ≤ c ∧ c ≤ 'F' := by
    rw [hexValue?] at h
    split at h
    · next hc => exact .inl hc
    split at h
    · next hc => exact .inr (.inl hc)
    split at h
    · next hc => exact .inr (.inr hc)
    · cases h
  have hnat : 48 ≤ c.toNat ∧ c.toNat ≤ 57 ∨ 97 ≤ c.toNat ∧ c.toNat ≤ 102 ∨
      65 ≤ c.toNat ∧ c.toNat ≤ 70 := hrange
  have hlow : 32 ≤ c.toNat ∧ c.toNat ≠ 127 := by omega
  simp [isPlain, hlow]

/-- Escapes are made of characters that may stand for themselves. -/
theorem isPlain_of_isEscape {c : Char} {e : List Char} (h : IsEscape c e) : ∀ d ∈ e, isPlain d = true := by
  cases h with
  | @letter e he =>
      intro d hd
      rw [List.mem_singleton.mp hd]
      revert he
      fun_cases escaped? e
      all_goals first | exact fun _ => rfl | exact nofun
  | four _ hn =>
      exact List.forall_mem_cons.mpr
        ⟨rfl, fun d hd => isPlain_of_hexValue? (Text.isSome_of_digitsValue? hn d hd)⟩
  | eight _ hn =>
      exact List.forall_mem_cons.mpr
        ⟨rfl, fun d hd => isPlain_of_hexValue? (Text.isSome_of_digitsValue? hn d hd)⟩

/-! ### Strings on one line -/

/-- What stands between two marks for a text: its characters as themselves or, between quotes, their
escapes. -/
inductive Spells (mark : Char) : List Char → List Char → Prop
  | nil : Spells mark [] []
  | plain {c : Char} {cs raw : List Char} (hm : c ≠ mark) (hb : ¬(c = '\\' ∧ mark = '"'))
      (hp : isPlain c = true) (h : Spells mark cs raw) : Spells mark (c :: cs) (c :: raw)
  | escape {c : Char} {e cs raw : List Char} (hm : mark = '"') (he : IsEscape c e)
      (h : Spells mark cs raw) : Spells mark (c :: cs) ('\\' :: (e ++ raw))

section Short

variable {mark : Char} {cs raw : List Char}

theorem isPlain_of_spells (h : Spells mark cs raw) : ∀ c ∈ raw, isPlain c = true := by
  induction h with
  | nil => exact fun c hc => absurd hc List.not_mem_nil
  | plain _ _ hp _ ih => exact List.forall_mem_cons.mpr ⟨hp, ih⟩
  | escape _ he _ ih =>
      exact List.forall_mem_cons.mpr
        ⟨rfl, List.forall_mem_append.mpr ⟨isPlain_of_isEscape he, ih⟩⟩

theorem short?_of_spells (h : Spells mark cs raw) (rest : List Char) {fuel : Nat}
    (hfuel : raw.length < fuel) : short? mark fuel (raw ++ mark :: rest) = some (cs, rest) := by
  induction h generalizing fuel with
  | nil =>
      obtain ⟨fuel, rfl⟩ := Nat.exists_eq_add_one.mpr hfuel
      simp [short?]
  | plain hm hb hp _ ih =>
      obtain ⟨fuel, rfl⟩ : ∃ n, fuel = n + 1 := ⟨fuel - 1, by omega⟩
      rw [List.cons_append, short?, if_neg hm, if_neg hb, if_pos hp, ih (by simpa using hfuel)]
      rfl
  | @escape c e cs raw hm he _ ih =>
      obtain ⟨fuel, rfl⟩ : ∃ n, fuel = n + 1 := ⟨fuel - 1, by omega⟩
      have hfuel : raw.length < fuel := by
        simp only [List.length_cons, List.length_append] at hfuel; omega
      have hback : '\\' ≠ mark := by rw [hm]; decide
      rw [List.cons_append, List.append_assoc, short?, if_neg hback, if_pos ⟨rfl, hm⟩,
        escape?_of_isEscape he]
      simp only [Option.bind_eq_bind, Option.bind_some, ih hfuel, Option.pure_def]

/-- **A string on one line is read back as its text.** -/
theorem readShort?_of_spells (hmark : mark = '"' ∨ mark = '\'') (h : Spells mark cs raw)
    (rest : List Char) : readShort? (mark :: (raw ++ mark :: rest)) = some (cs, rest) := by
  have hfuel : raw.length < (raw ++ mark :: rest).length + 1 := by
    rw [List.length_append]; omega
  rw [readShort?, if_pos hmark, short?_of_spells h rest hfuel]

theorem readText?_of_spells (hmark : mark = '"' ∨ mark = '\'') (h : Spells mark cs raw) {d : Char}
    (hd : d ≠ mark) (rest : List Char) :
    readText? (mark :: (raw ++ mark :: d :: rest)) = some (cs, d :: rest) := by
  -- the marks at its start are not three
  have hshort : readText? (mark :: (raw ++ mark :: d :: rest)) =
      readShort? (mark :: (raw ++ mark :: d :: rest)) := by
    cases h with
    | nil => simp [readText?, hd]
    | @plain c cs raw hm _ _ _ =>
        cases raw with
        | nil => simp [readText?, hm]
        | cons r rs => simp [readText?, hm]
    | @escape c e cs raw hm he _ =>
        have hback : '\\' ≠ mark := by rw [hm]; decide
        cases e with
        | nil => cases he
        | cons e es => simp [readText?, hback]
  rw [hshort, readShort?_of_spells hmark h]

end Short

/-! ### Long strings -/

/-- What stands between three marks and three marks for a text, behind `run` marks: its characters as
themselves, marks up to two in a row among them, or, between quotes, their escapes. -/
inductive SpellsLong (mark : Char) : Nat → List Char → List Char → Prop
  | nil {run : Nat} : SpellsLong mark run [] []
  | mark {run : Nat} {cs raw : List Char} (hr : run < 2) (h : SpellsLong mark (run + 1) cs raw) :
      SpellsLong mark run (mark :: cs) (mark :: raw)
  | plain {run : Nat} {c : Char} {cs raw : List Char} (hm : c ≠ mark) (hb : ¬(c = '\\' ∧ mark = '"'))
      (hp : isPlain c = true ∨ c = '\n') (h : SpellsLong mark 0 cs raw) :
      SpellsLong mark run (c :: cs) (c :: raw)
  | escape {run : Nat} {c : Char} {e cs raw : List Char} (hm : mark = '"') (he : IsEscape c e)
      (h : SpellsLong mark 0 cs raw) : SpellsLong mark run (c :: cs) ('\\' :: (e ++ raw))

section Long

variable {mark : Char} {run : Nat} {cs raw : List Char}

theorem isPlain_of_spellsLong (hmark : isPlain mark = true) (h : SpellsLong mark run cs raw) :
    ∀ c ∈ raw, isPlain c = true ∨ c = '\n' := by
  induction h with
  | nil => exact fun c hc => absurd hc List.not_mem_nil
  | mark _ _ ih => exact List.forall_mem_cons.mpr ⟨.inl hmark, ih⟩
  | plain _ _ hp _ ih => exact List.forall_mem_cons.mpr ⟨hp, ih⟩
  | escape _ he _ ih =>
      exact List.forall_mem_cons.mpr
        ⟨.inl rfl, List.forall_mem_append.mpr ⟨fun c hc => .inl (isPlain_of_isEscape he c hc), ih⟩⟩

/-- A long string starts with a newline only for a text that does. -/
theorem head_of_spellsLong (hmark : mark ≠ '\n') (h : SpellsLong mark run cs raw) (hn : '\n' ∉ cs) :
    raw.head? ≠ some '\n' := by
  cases h with
  | nil => exact nofun
  | mark => exact fun h => hmark (Option.some.inj h)
  | plain => exact fun h => hn (Option.some.inj h ▸ List.mem_cons_self)
  | escape => exact fun h => absurd (Option.some.inj h) (by decide)

/-- The marks at the start of a long string: either it is nothing but marks, or too few for a closing
come before something else. -/
theorem marks_of_spellsLong (h : SpellsLong mark run cs raw) (hr : run ≤ 2) :
    (∃ n, run + n ≤ 2 ∧ cs = List.replicate n mark ∧ raw = List.replicate n mark) ∨
      ∀ rest, run + ((raw ++ rest).takeWhile (· = mark)).length ≤ 2 := by
  induction h with
  | nil => exact .inl ⟨0, hr, rfl, rfl⟩
  | mark hlt _ ih =>
      rcases ih hlt with ⟨n, hn, rfl, rfl⟩ | hfew
      · exact .inl ⟨n + 1, by omega, rfl, rfl⟩
      · refine .inr fun rest => ?_
        have hrest := hfew rest
        rw [List.cons_append, List.takeWhile_cons_of_pos (by simp), List.length_cons]
        omega
  | plain hm _ _ _ _ =>
      refine .inr fun rest => ?_
      rw [List.cons_append, List.takeWhile_cons_of_neg (by simpa using hm)]
      exact hr
  | escape hm _ _ _ =>
      refine .inr fun rest => ?_
      have hback : '\\' ≠ mark := by rw [hm]; decide
      rw [List.cons_append, List.takeWhile_cons_of_neg (by simpa using hback)]
      exact hr

/-- Up to two marks in front of three close a long string and belong to its text. -/
theorem closing?_replicate {n : Nat} (hn : n ≤ 2) {d : Char} (hd : d ≠ mark) (rest : List Char) :
    closing? mark (List.replicate n mark ++ mark :: mark :: mark :: d :: rest) =
      some (List.replicate n mark, d :: rest) := by
  match n, hn with
  | 0, _ => simp [closing?, hd]
  | 1, _ => simp [closing?, hd]
  | 2, _ => simp [closing?, hd]

theorem closing?_of_few {cs : List Char} (h : (cs.takeWhile (· = mark)).length ≤ 2) :
    closing? mark cs = none := by
  rw [closing?, if_pos (by omega)]

theorem long?_of_spellsLong (h : SpellsLong mark run cs raw) (hr : run ≤ 2) {d : Char} (hd : d ≠ mark)
    (rest : List Char) {fuel : Nat} (hfuel : raw.length < fuel) :
    long? mark fuel (raw ++ mark :: mark :: mark :: d :: rest) = some (cs, d :: rest) := by
  -- by how the text is spelled: behind `run` marks it never has three in a row before the closing
  induction h generalizing fuel with
  | nil =>
      obtain ⟨fuel, rfl⟩ := Nat.exists_eq_add_one.mpr hfuel
      have hclose := closing?_replicate (Nat.zero_le 2) hd rest
      rw [List.replicate_zero, List.nil_append] at hclose
      rw [List.nil_append, long?, if_pos rfl, hclose]
  | @mark run cs raw hlt h ih =>
      obtain ⟨fuel, rfl⟩ : ∃ n, fuel = n + 1 := ⟨fuel - 1, by omega⟩
      rcases marks_of_spellsLong (.mark hlt h) hr with ⟨n, hn, hcs, hraw⟩ | hfew
      · -- nothing but marks is left, and the closing takes them
        have hclose := closing?_replicate (Nat.le_trans (Nat.le_add_left n run) hn) hd rest
        rw [← hraw, List.cons_append] at hclose
        rw [List.cons_append, long?, if_pos rfl, hclose, hraw, ← hcs]
      · have hclose := closing?_of_few (Nat.le_trans (Nat.le_add_left _ _)
          (hfew (mark :: mark :: mark :: d :: rest)))
        rw [List.cons_append] at hclose
        rw [List.cons_append, long?, if_pos rfl, hclose, ih hlt (by simpa using hfuel)]
        rfl
  | @plain run c cs raw hm hb hp _ ih =>
      obtain ⟨fuel, rfl⟩ : ∃ n, fuel = n + 1 := ⟨fuel - 1, by omega⟩
      have hp : (isPlain c || c == '\n') = true := by simpa using hp
      rw [List.cons_append, long?, if_neg hm, if_neg hb, if_pos hp,
        ih (Nat.zero_le 2) (by simpa using hfuel)]
      rfl
  | @escape run c e cs raw hm he _ ih =>
      obtain ⟨fuel, rfl⟩ : ∃ n, fuel = n + 1 := ⟨fuel - 1, by omega⟩
      have hfuel : raw.length < fuel := by
        simp only [List.length_cons, List.length_append] at hfuel; omega
      have hback : '\\' ≠ mark := by rw [hm]; decide
      rw [List.cons_append, List.append_assoc, long?, if_neg hback, if_pos ⟨rfl, hm⟩,
        continued?_of_isEscape he, escape?_of_isEscape he]
      simp only [Option.bind_eq_bind, Option.bind_some, ih (Nat.zero_le 2) hfuel, Option.pure_def]

/-- **A long string is read back as its text.** -/
theorem readText?_of_spellsLong (hmark : mark = '"' ∨ mark = '\'') (h : SpellsLong mark 0 cs raw)
    {start : List Char} (hstart : start = ['\n'] ∨ start = [] ∧ raw.head? ≠ some '\n') {d : Char}
    (hd : d ≠ mark) (rest : List Char) :
    readText? (mark :: mark :: mark :: (start ++ raw ++ mark :: mark :: mark :: d :: rest)) =
      some (cs, d :: rest) := by
  have hopen : dropNewline (start ++ raw ++ mark :: mark :: mark :: d :: rest) =
      raw ++ mark :: mark :: mark :: d :: rest := by
    rcases hstart with rfl | ⟨rfl, hraw⟩
    · rfl
    · cases raw with
      | nil => rcases hmark with rfl | rfl <;> rfl
      | cons r rs =>
          have hr : r ≠ '\n' := by simpa using hraw
          simp [dropNewline, hr]
  have hfuel : raw.length < (start ++ raw ++ mark :: mark :: mark :: d :: rest).length + 1 := by
    simp only [List.length_append]; omega
  rw [readText?, if_pos ⟨hmark, rfl, rfl⟩, hopen, long?_of_spellsLong h (Nat.zero_le 2) hd rest hfuel]

end Long

/-! ### The writer -/

theorem hexValue?_upperDigit {n : Nat} (hn : n < 16) : hexValue? (upperDigit n) = some n := by
  revert n; decide

/-- A character is written as itself or as an escape. -/
theorem escapeChar_cases (c : Char) :
    (escapeChar c = [c] ∧ c ≠ '\\' ∧ isPlain c = true) ∨ ∃ e, escapeChar c = '\\' :: e ∧ IsEscape c e := by
  unfold escapeChar
  split
  · next hc => exact .inr ⟨_, rfl, .letter (by rw [hc]; rfl)⟩
  split
  · next hc => exact .inr ⟨_, rfl, .letter (by rw [hc]; rfl)⟩
  split
  · next hc => exact .inr ⟨_, rfl, .letter (by rw [hc]; rfl)⟩
  split
  · next hc => exact .inr ⟨_, rfl, .letter (by rw [hc]; rfl)⟩
  split
  · next hc => exact .inr ⟨_, rfl, .letter (by rw [hc]; rfl)⟩
  split
  · next hc =>
    refine .inr ⟨_, rfl, .four rfl ?_⟩
    have hzero : hexValue? '0' = some 0 := rfl
    simp only [digitsValue?, hzero, hexValue?_upperDigit (show c.toNat / 16 < 16 by omega),
      hexValue?_upperDigit (show c.toNat % 16 < 16 by omega), Option.bind_some]
    exact congrArg some (by omega)
  · next hb hc =>
    refine .inl ⟨rfl, hb, ?_⟩
    rw [not_or] at hc
    have hlow : 0x20 ≤ c.toNat := by omega
    simp [isPlain, hlow, hc.2]

theorem spells_escapeBasic (cs : List Char) : Spells '"' cs (escapeBasic cs) := by
  induction cs with
  | nil => exact .nil
  | cons c cs ih =>
      rw [escapeBasic]
      split
      · next hc => exact .escape rfl (.letter (by rw [hc]; rfl)) ih
      split
      · next hc => exact .escape rfl (.letter (by rw [hc]; rfl)) ih
      · next hq _ =>
        rcases escapeChar_cases c with ⟨heq, hb, hp⟩ | ⟨e, heq, he⟩
        · rw [heq]; exact .plain hq (fun h => hb h.1) hp ih
        · rw [heq]; exact .escape rfl he ih

/-- The third mark in a row is escaped. -/
theorem spellsLong_escapeLong {run : Nat} (hr : run ≤ 2) (cs : List Char) :
    SpellsLong '"' run cs (escapeLong run cs) := by
  induction cs generalizing run with
  | nil => exact .nil
  | cons c cs ih =>
      rw [escapeLong]
      split
      · next hc =>
        subst hc
        split
        · exact .escape rfl (.letter rfl) (ih (Nat.zero_le 2))
        · exact .mark (by omega) (ih (by omega))
      split
      · next hq hc =>
        subst hc
        exact .plain hq (fun h => absurd h.1 (by decide)) (.inr rfl) (ih (Nat.zero_le 2))
      · next hq _ =>
        rcases escapeChar_cases c with ⟨heq, hb, hp⟩ | ⟨e, heq, he⟩
        · rw [heq]; exact .plain hq (fun h => hb h.1) (.inl hp) (ih (Nat.zero_le 2))
        · rw [heq]; exact .escape rfl he (ih (Nat.zero_le 2))

/-- What is no control character may stand for itself. -/
theorem isPlain_of_not_isControl {c : Char} (h : isControl c = false) : isPlain c = true ∨ c = '\n' := by
  by_cases ht : c = '\t'
  · exact .inl (by rw [ht]; rfl)
  by_cases hn : c = '\n'
  · exact .inr hn
  simp [isControl, ht, hn] at h
  simp [isPlain, h.2]
  omega

theorem spells_literal {cs : List Char} (hc : ∀ c ∈ cs, isControl c = false) (ha : '\'' ∉ cs)
    (hn : '\n' ∉ cs) : Spells '\'' cs cs := by
  induction cs with
  | nil => exact .nil
  | cons c cs ih =>
      rw [List.forall_mem_cons] at hc
      rw [List.mem_cons, not_or] at ha hn
      refine .plain (Ne.symm ha.1) (fun h => absurd h.2 (by decide)) ?_ (ih hc.2 ha.2 hn.2)
      exact (isPlain_of_not_isControl hc.1).resolve_right (Ne.symm hn.1)

theorem le_longestRun (c : Char) (n : Nat) (cs : List Char) : n ≤ longestRun c n cs := by
  induction cs generalizing n with
  | nil => exact Nat.le_refl n
  | cons d ds ih =>
      rw [longestRun]
      split
      · exact Nat.le_trans (Nat.le_succ n) (ih (n + 1))
      · exact Nat.le_max_left _ _

theorem spellsLong_literal {run : Nat} {cs : List Char} (hc : ∀ c ∈ cs, isControl c = false)
    (hrun : longestRun '\'' run cs ≤ 2) : SpellsLong '\'' run cs cs := by
  induction cs generalizing run with
  | nil => exact .nil
  | cons c cs ih =>
      rw [List.forall_mem_cons] at hc
      rw [longestRun] at hrun
      split at hrun
      · next heq =>
        subst heq
        exact .mark (Nat.le_trans (le_longestRun _ _ _) hrun) (ih hc.2 hrun)
      · next hne =>
        refine .plain hne (fun h => absurd h.2 (by decide)) (isPlain_of_not_isControl hc.1) ?_
        exact ih hc.2 (Nat.le_trans (Nat.le_max_right _ _) hrun)

/-- When the writer leaves out all escapes. -/
theorem formOf_cases (cs : List Char) :
    formOf cs = .basic ∨ formOf cs = .longBasic ∨
      (formOf cs = .literal ∧ (∀ c ∈ cs, isControl c = false) ∧ '\'' ∉ cs ∧ '\n' ∉ cs) ∨
      (formOf cs = .longLiteral ∧ (∀ c ∈ cs, isControl c = false) ∧ longestRun '\'' 0 cs ≤ 2) := by
  simp only [formOf]
  split
  · exact .inl rfl
  split
  · next h =>
    refine .inr (.inr (.inl ⟨rfl, ?_⟩))
    simpa [and_assoc] using h
  split
  · exact .inr (.inl rfl)
  split
  · next h =>
    refine .inr (.inr (.inr ⟨rfl, ?_⟩))
    simpa using h
  split
  · exact .inr (.inl rfl)
  · exact .inl rfl

/-- What stands between three marks and the text of a long form. -/
theorem opening_cases (cs : List Char) : opening cs = ['\n'] ∨ opening cs = [] ∧ '\n' ∉ cs := by
  rw [opening]
  split
  · exact .inl rfl
  · next h => exact .inr ⟨rfl, by simpa using h⟩

/-- The writer picks one of the written forms of a text. -/
theorem writeAs_cases (cs : List Char) : ∃ mark, (mark = '"' ∨ mark = '\'') ∧
    ((∃ raw, Spells mark cs raw ∧ writeAs cs (formOf cs) = mark :: (raw ++ [mark])) ∨
      ∃ raw, SpellsLong mark 0 cs raw ∧
        writeAs cs (formOf cs) = mark :: mark :: mark :: (opening cs ++ raw ++ [mark, mark, mark])) := by
  rcases formOf_cases cs with hf | hf | ⟨hf, hc, ha, hn⟩ | ⟨hf, hc, hrun⟩
  · exact ⟨'"', .inl rfl, .inl ⟨_, spells_escapeBasic cs, by rw [hf]; rfl⟩⟩
  · exact ⟨'"', .inl rfl, .inr ⟨_, spellsLong_escapeLong (Nat.zero_le 2) cs, by rw [hf]; rfl⟩⟩
  · exact ⟨'\'', .inr rfl, .inl ⟨_, spells_literal hc ha hn, by rw [hf]; rfl⟩⟩
  · exact ⟨'\'', .inr rfl, .inr ⟨_, spellsLong_literal hc hrun, by rw [hf]; rfl⟩⟩

/-- **Each text is read back from its written form.** -/
theorem readText?_writeText (s : String) {d : Char} (hd : d ≠ '"' ∧ d ≠ '\'') (rest : List Char) :
    readText? ((writeText s).toList ++ d :: rest) = some (s.toList, d :: rest) := by
  rw [writeText, String.toList_ofList]
  obtain ⟨mark, hmark, hform⟩ := writeAs_cases s.toList
  have hd : d ≠ mark := by
    rcases hmark with rfl | rfl
    · exact hd.1
    · exact hd.2
  rcases hform with ⟨raw, hraw, heq⟩ | ⟨raw, hraw, heq⟩
  · have hread := readText?_of_spells hmark hraw hd rest
    rw [heq]
    simpa using hread
  · have hstart : opening s.toList = ['\n'] ∨ opening s.toList = [] ∧ raw.head? ≠ some '\n' := by
      have hne : mark ≠ '\n' := by rcases hmark with rfl | rfl <;> decide
      exact (opening_cases s.toList).imp_right fun h => ⟨h.1, head_of_spellsLong hne hraw h.2⟩
    have hread := readText?_of_spellsLong hmark hraw hstart hd rest
    rw [heq]
    simpa using hread

/-- A written form has no characters that must be escaped, apart from line ends. -/
theorem isPlain_of_writeText (s : String) : ∀ c ∈ (writeText s).toList, isPlain c = true ∨ c = '\n' := by
  rw [writeText, String.toList_ofList]
  obtain ⟨mark, hmark, hform⟩ := writeAs_cases s.toList
  have hplain : isPlain mark = true := by rcases hmark with rfl | rfl <;> rfl
  intro c hc
  rcases hform with ⟨raw, hraw, heq⟩ | ⟨raw, hraw, heq⟩
  · rw [heq, List.mem_cons, List.mem_append, List.mem_singleton] at hc
    rcases hc with rfl | hc | rfl
    · exact .inl hplain
    · exact .inl (isPlain_of_spells hraw c hc)
    · exact .inl hplain
  · have hopen : ∀ c ∈ opening s.toList, c = '\n' := by
      rcases opening_cases s.toList with h | ⟨h, -⟩
      · rw [h]; exact fun c hc => List.mem_singleton.mp hc
      · rw [h]; exact nofun
    simp only [heq, List.mem_cons, List.mem_append, List.not_mem_nil, or_false] at hc
    rcases hc with rfl | rfl | rfl | (hc | hc) | rfl | rfl | rfl
    all_goals first
      | exact .inl hplain
      | exact .inr (hopen c hc)
      | exact isPlain_of_spellsLong hplain hraw c hc

end PrefixMatch.Toml
