import PrefixMatch.Proofs.Toml.Text
import PrefixMatch.Toml.Exact

/-!
# Toml — where scalars end

Nothing behind the closing marks has a part in a string (`readText?_append_newline`), and no number, date,
time or word goes on over the end of a line: every reader of these stops at a newline
(`Exact.stopsAt_scalar?`).
-/

namespace PrefixMatch.Toml

open Text (StopsAt SkipStopsAt EndsNumber)

theorem endsNumber_newline : EndsNumber '\n' :=
  ⟨rfl, by decide, by decide, by decide⟩

/-! ### Strings -/

/-- A character that is given by its number takes as many digits as there are, whatever follows. -/
theorem numbered?_of_append {digits : Nat} {cs rest : List Char} {c : Char}
    (h : numbered? digits cs = some (c, rest)) (more : List Char) :
    numbered? digits (cs ++ more) = some (c, rest ++ more) := by
  by_cases hlen : cs.length < digits
  · simp [numbered?, Text.takeHex?, hlen] at h
  · have hlen' : ¬ (cs ++ more).length < digits := by rw [List.length_append]; omega
    simp only [numbered?, Text.takeHex?, if_neg hlen, Option.bind_eq_bind, Option.bind_map,
      Option.bind_eq_some_iff, Function.comp_apply, Option.pure_def, Option.some.injEq,
      Prod.mk.injEq] at h
    obtain ⟨n, hn, d, hd, rfl, rfl⟩ := h
    simp only [numbered?, Text.takeHex?, if_neg hlen', List.take_append_of_le_length (Nat.not_lt.mp hlen),
      List.drop_append_of_le_length (Nat.not_lt.mp hlen), hn, Option.map_some, Option.bind_eq_bind,
      Option.bind_some, hd, Option.pure_def]

/-- Nothing behind an escape has a part in it. -/
theorem escape?_append {cs rest : List Char} {c : Char} (h : escape? cs = some (c, rest))
    (more : List Char) : escape? (cs ++ more) = some (c, rest ++ more) := by
  cases cs with
  | nil => cases h
  | cons d ds =>
      by_cases hu : d = 'u'
      · subst hu; exact numbered?_of_append h more
      by_cases hU : d = 'U'
      · subst hU; exact numbered?_of_append h more
      rw [escape?_cons hu hU] at h
      obtain ⟨e, he, heq⟩ := Option.map_eq_some_iff.mp h
      cases heq
      rw [List.cons_append, escape?_cons hu hU, he]
      rfl

/-- An escape does not start with what may continue a line. -/
theorem continued?_of_escape? {cs rest : List Char} {c : Char} (h : escape? cs = some (c, rest)) :
    continued? cs = none := by
  cases cs with
  | nil => cases h
  | cons d ds =>
      have hs : isSpace d = false := by
        cases hs : isSpace d with
        | false => rfl
        | true =>
            simp only [isSpace, Bool.or_eq_true, beq_iff_eq] at hs
            rcases hs with rfl | rfl
            · cases h
            · cases h
      have hn : d ≠ '\n' := by rintro rfl; cases h
      simp [continued?, hs, hn]

/-- Nothing behind the closing mark has a part in a string on one line. -/
theorem short?_append {mark : Char} {fuel : Nat} {cs text rest : List Char}
    (h : short? mark fuel cs = some (text, rest)) (more : List Char) {fuel' : Nat} (hf : fuel ≤ fuel') :
    short? mark fuel' (cs ++ more) = some (text, rest ++ more) := by
  induction fuel generalizing cs text rest fuel' with
  | zero => cases h
  | succ fuel ih =>
      obtain ⟨fuel', rfl⟩ : ∃ n, fuel' = n + 1 := ⟨fuel' - 1, by omega⟩
      have hf := Nat.le_of_succ_le_succ hf
      cases cs with
      | nil => cases h
      | cons c cs =>
          rw [short?] at h
          rw [List.cons_append, short?]
          split at h
          · next hm =>
            cases h
            rw [if_pos hm]
          · next hm =>
            rw [if_neg hm]
            split at h
            · next hb =>
              simp only [Option.bind_eq_bind, Option.bind_eq_some_iff, Option.pure_def, Option.some.injEq,
                Prod.mk.injEq] at h
              obtain ⟨⟨d, rest₁⟩, he, ⟨text₁, rest₂⟩, ht, rfl, rfl⟩ := h
              simp only [if_pos hb, escape?_append he more, ih ht hf, Option.bind_eq_bind,
                Option.bind_some, Option.pure_def]
            · next hb =>
              rw [if_neg hb]
              split at h
              · next hp =>
                obtain ⟨⟨text₁, rest₁⟩, ht, heq⟩ := Option.map_eq_some_iff.mp h
                cases heq
                rw [if_pos hp, ih ht hf]
                rfl
              · cases h

/-- Marks that close a long string are not added to by a newline. -/
theorem closing?_append {mark : Char} (hmark : mark ≠ '\n') (cs more : List Char) :
    closing? mark (cs ++ '\n' :: more) =
      (closing? mark cs).map fun (text, rest) => (text, rest ++ '\n' :: more) := by
  have hlen : (cs.takeWhile (· = mark)).length ≤ cs.length :=
    (List.takeWhile_prefix _).length_le
  have hstop : decide ('\n' = mark) = false := by simpa using Ne.symm hmark
  simp only [closing?, Text.takeWhile_append_stop (p := fun c => decide (c = mark)) hstop]
  split
  · rfl
  · rw [List.drop_append_of_le_length (by omega)]
    rfl

/-- A line goes on with its first character that is no blank, if there is one. -/
theorem continued?_append {cs rest : List Char} (h : continued? cs = some rest) (hr : rest ≠ [])
    (more : List Char) : continued? (cs ++ more) = some (rest ++ more) := by
  simp only [continued?, List.dropWhile_append] at h ⊢
  split at h
  · next tail heq =>
    cases h
    simp only [heq, List.isEmpty_cons, Bool.false_eq_true, if_false, List.cons_append,
      List.dropWhile_append, List.isEmpty_iff, if_neg hr]
  · cases h

/-- Nothing behind the closing marks has a part in a long string, unless it is a mark. -/
theorem long?_append {mark : Char} (hmark : mark ≠ '\n') {fuel : Nat} {cs text rest : List Char}
    (h : long? mark fuel cs = some (text, rest)) (more : List Char) {fuel' : Nat} (hf : fuel ≤ fuel') :
    long? mark fuel' (cs ++ '\n' :: more) = some (text, rest ++ '\n' :: more) := by
  induction fuel generalizing cs text rest fuel' with
  | zero => cases h
  | succ fuel ih =>
      obtain ⟨fuel', rfl⟩ : ∃ n, fuel' = n + 1 := ⟨fuel' - 1, by omega⟩
      have hf := Nat.le_of_succ_le_succ hf
      cases cs with
      | nil => cases h
      | cons c cs =>
          have hclose := closing?_append hmark (c :: cs) more
          rw [List.cons_append] at hclose
          rw [long?] at h
          rw [List.cons_append, long?]
          split at h
          · next hm =>
            rw [if_pos hm, hclose]
            split at h
            · next closed heq =>
              cases h
              rw [heq]
              rfl
            · next heq =>
              obtain ⟨⟨text₁, rest₁⟩, ht, htext⟩ := Option.map_eq_some_iff.mp h
              cases htext
              rw [heq, Option.map_none, ih ht hf]
              rfl
          · next hm =>
            rw [if_neg hm]
            split at h
            · next hb =>
              rw [if_pos hb]
              split at h
              · next rest₁ hcont =>
                -- at the end of the text a continued line would be left open
                have hne : rest₁ ≠ [] := by
                  rintro rfl
                  cases fuel with
                  | zero => cases h
                  | succ => cases h
                rw [continued?_append hcont hne]
                exact ih h hf
              · simp only [Option.bind_eq_bind, Option.bind_eq_some_iff, Option.pure_def,
                  Option.some.injEq, Prod.mk.injEq] at h
                obtain ⟨⟨d, rest₁⟩, he, ⟨text₁, rest₂⟩, ht, rfl, rfl⟩ := h
                have he := escape?_append he ('\n' :: more)
                simp only [continued?_of_escape? he, he, ih ht hf, Option.bind_eq_bind,
                  Option.bind_some, Option.pure_def]
            · next hb =>
              rw [if_neg hb]
              split at h
              · next hp =>
                obtain ⟨⟨text₁, rest₁⟩, ht, htext⟩ := Option.map_eq_some_iff.mp h
                cases htext
                rw [if_pos hp, ih ht hf]
                rfl
              · cases h

/-- A string on one line is read alike when another line follows. -/
theorem readShort?_append_newline {cs text rest : List Char} (h : readShort? cs = some (text, rest))
    (more : List Char) : readShort? (cs ++ '\n' :: more) = some (text, rest ++ '\n' :: more) := by
  cases cs with
  | nil => cases h
  | cons c cs =>
      rw [readShort?] at h
      rw [List.cons_append, readShort?]
      split at h
      · next hm =>
        rw [if_pos hm]
        exact short?_append h _ (by simp)
      · cases h

/-- **A string ends with its line at the latest**, when nothing but the line is read. -/
theorem readText?_append_newline {cs text rest : List Char} (h : readText? cs = some (text, rest))
    (hn : '\n' ∉ cs) (more : List Char) :
    readText? (cs ++ '\n' :: more) = some (text, rest ++ '\n' :: more) := by
  match cs with
  | [] => cases h
  | [a] =>
      have h : readShort? [a] = some (text, rest) := h
      rw [readShort?] at h
      split at h
      · cases h
      · cases h
  | [a, b] =>
      -- the newline does not make three marks of two
      have hthree : ¬((a = '"' ∨ a = '\'') ∧ b = a ∧ '\n' = a) := by
        rintro ⟨hm, -, rfl⟩
        exact absurd hm (by decide)
      have h : readShort? [a, b] = some (text, rest) := h
      rw [List.cons_append, List.cons_append, List.nil_append, readText?, if_neg hthree]
      exact readShort?_append_newline h more
  | a :: b :: c :: tail =>
      rw [readText?] at h
      rw [List.cons_append, List.cons_append, List.cons_append, readText?]
      split at h
      · next hm =>
        have hne : a ≠ '\n' := by rintro rfl; exact absurd hm.1 (by decide)
        cases tail with
        | nil => cases h
        | cons t ts =>
            simp only [List.mem_cons, not_or] at hn
            have hopen : ∀ more, dropNewline (t :: ts ++ more) = t :: ts ++ more := by
              intro more
              simp [dropNewline, Ne.symm hn.2.2.2.1]
            have htail := hopen []
            rw [List.append_nil] at htail
            rw [htail] at h
            rw [if_pos hm, hopen]
            exact long?_append hne h more (by simp)
      · next hm =>
        rw [if_neg hm]
        exact readShort?_append_newline h more

/-! ### Digits -/

section Digits

variable {isDigit : Char → Bool}

theorem digits?_of_not_digit {c : Char} (hc : isDigit c = false) (cs : List Char) :
    digits? isDigit (c :: cs) = none := by
  rw [digits?.eq_def]; simp [hc]

/-- A digit without an underscore behind it. -/
theorem digits?_cons {c : Char} (hc : isDigit c = true) {cs : List Char} (hu : cs.head? ≠ some '_') :
    digits? isDigit (c :: cs) =
      match digits? isDigit cs with
      | some (ds, rest) => some (c :: ds, rest)
      | none => if cs.head?.any isDigit then none else some ([c], cs) := by
  have hu : ∀ rest, cs ≠ '_' :: rest := by rintro rest rfl; exact hu rfl
  rw [digits?.eq_def]
  cases hds : digits? isDigit cs with
  | none => simp only [hc, hds, Bool.not_true, Bool.false_eq_true, if_false]
  | some found => simp only [hc, hds, Bool.not_true, Bool.false_eq_true, if_false]

/-- Digits and underscores end with the line, in every base. -/
theorem stopsAt_digits? (isDigit : Char → Bool) (hd : isDigit '\n' = false) :
    StopsAt '\n' (digits? isDigit) := by
  intro cs more
  fun_induction digits? isDigit cs with
  | case1 => exact digits?_of_not_digit hd more
  | case2 c cs hc => exact digits?_of_not_digit (by simpa using hc) _
  | case3 c hc rest ih =>
      have hc : isDigit c = true := by simpa using hc
      rw [List.cons_append, List.cons_append, digits?.eq_def]
      simp only [hc, Bool.not_true, Bool.false_eq_true, if_false, ih, Option.map_map,
        Function.comp_def]
  | case4 c hc cs hu ds rest hds ih =>
      have hc : isDigit c = true := by simpa using hc
      have hu' : (cs ++ '\n' :: more).head? ≠ some '_' := by
        cases cs with
        | nil => simp
        | cons e es => simpa using fun h => hu es (by rw [h])
      rw [List.cons_append, digits?_cons hc hu', ih, hds]
      rfl
  | case5 c hc cs hu hnone hany ih =>
      have hc : isDigit c = true := by simpa using hc
      cases cs with
      | nil => cases hany
      | cons e es =>
          have hu' : ((e :: es) ++ '\n' :: more).head? ≠ some '_' := by
            simpa using fun h => hu es (by rw [h])
          rw [List.cons_append, digits?_cons hc hu', ih, hnone]
          simp at hany
          simp [hany]
  | case6 c hc cs hu hnone hany ih =>
      have hc : isDigit c = true := by simpa using hc
      cases cs with
      | nil =>
          rw [List.cons_append, digits?_cons hc (by simp), ih, hnone]
          simp [hd]
      | cons e es =>
          have hu' : ((e :: es) ++ '\n' :: more).head? ≠ some '_' := by
            simpa using fun h => hu es (by rw [h])
          rw [List.cons_append, digits?_cons hc hu', ih, hnone]
          simp at hany
          simp [hany]

theorem stopsAt_whole? : StopsAt '\n' whole? := by
  intro cs more
  simp only [whole?, stopsAt_digits? Char.isDigit rfl _ _, Option.bind_eq_bind,
    Option.bind_map, Option.map_bind]
  refine congrArg _ (funext fun ⟨digits, rest⟩ => ?_)
  simp only [Function.comp_apply]
  split
  · rfl
  · rfl

end Digits

/-! ### Dates and times -/

/-- So does a number of digits that is fixed: the newline would be one of them otherwise. -/
theorem stopsAt_fixedDigits? (count : Nat) : StopsAt '\n' (fixedDigits? count) := by
  intro cs more
  simp only [fixedDigits?]
  by_cases hlen : count ≤ cs.length
  · rw [List.take_append_of_le_length hlen, List.drop_append_of_le_length hlen]
    split
    · rfl
    · rfl
  · -- the newline is among the characters taken, and it is no digit
    have hmem : '\n' ∈ (cs ++ '\n' :: more).take count := by
      obtain ⟨k, hk⟩ : ∃ k, count - cs.length = k + 1 := ⟨count - cs.length - 1, by omega⟩
      rw [List.take_append, hk, List.take_succ_cons]
      exact List.mem_append_right _ List.mem_cons_self
    have hall : ((cs ++ '\n' :: more).take count).all Char.isDigit = false :=
      List.all_eq_false.mpr ⟨'\n', hmem, by decide⟩
    have hshort : (cs.take count).length ≠ count := by rw [List.length_take]; omega
    rw [hall, if_neg fun h => absurd h.2 (by decide), if_neg fun h => hshort h.1]
    rfl

/-- A mark other than a newline is skipped only within the line. -/
theorem skipStopsAt_after? {c : Char} (hc : c ≠ '\n') : SkipStopsAt '\n' (after? c) := by
  intro cs more
  cases cs with
  | nil => simp [after?, Ne.symm hc]
  | cons d ds =>
      simp only [List.cons_append, after?]
      split
      · rfl
      · rfl

/-- A date ends with its line. -/
theorem stopsAt_date? : StopsAt '\n' date? := by
  intro cs more
  have hdash := skipStopsAt_after? (show '-' ≠ '\n' by decide)
  simp only [date?, stopsAt_fixedDigits? _ _ _, hdash _ _, Option.bind_eq_bind,
    Option.bind_map, Option.map_bind, Function.comp_def, Option.pure_def, Option.map_some]

/-- So does a time, with or without a fraction of the second. -/
theorem stopsAt_time? : StopsAt '\n' time? := by
  intro cs more
  have hcolon := skipStopsAt_after? (show ':' ≠ '\n' by decide)
  simp only [time?, stopsAt_fixedDigits? _ _ _, hcolon _ _, Option.bind_eq_bind,
    Option.bind_map, Option.map_bind, Function.comp_def, Option.pure_def]
  refine congrArg _ (funext fun hour => congrArg _ (funext fun _ => congrArg _ (funext fun minute =>
    congrArg _ (funext fun _ => congrArg _ (funext fun ⟨second, rest⟩ => ?_)))))
  -- what is left is the fraction of the second
  cases rest with
  | nil => rfl
  | cons d ds =>
      by_cases hd : d = '.'
      · subst hd
        simp only [List.cons_append, Text.takeWhile_append_stop (p := Char.isDigit) (c := '\n') rfl,
          Text.dropWhile_append_stop (p := Char.isDigit) (c := '\n') rfl]
        split
        · rfl
        · rfl
      · simp [hd]

/-- And so does the offset behind it. -/
theorem stopsAt_offset? : StopsAt '\n' offset? := by
  intro cs more
  have hcolon := skipStopsAt_after? (show ':' ≠ '\n' by decide)
  cases cs with
  | nil => rfl
  | cons c cs =>
      simp only [List.cons_append, offset?, stopsAt_fixedDigits? _ _ _, hcolon _ _, Option.bind_eq_bind,
        Option.bind_map, Function.comp_def, Option.pure_def]
      split
      · rfl
      split
      · simp only [Option.map_bind, Function.comp_def, Option.map_some]
      · rfl

namespace Exact

theorem stopsAt_clock? : StopsAt '\n' clock? := by
  intro cs more
  simp only [clock?, stopsAt_time? _ _, Option.bind_eq_bind, Option.bind_map, Option.map_bind]
  refine congrArg _ (funext fun ⟨time, rest⟩ => ?_)
  simp only [Function.comp_apply]
  split
  · rfl
  · rfl

/-- Whether there is a time behind a date is decided within the line. -/
theorem timeAfter_append_newline (cs more : List Char) :
    timeAfter (cs ++ '\n' :: more) = ((timeAfter cs).1, (timeAfter cs).2 ++ '\n' :: more) := by
  cases cs with
  | nil => rfl
  | cons c cs =>
      simp only [List.cons_append, timeAfter]
      by_cases hc : isTimeMark c = true
      · simp only [if_pos hc, stopsAt_clock? _ _]
        cases clock? cs with
        | none => rfl
        | some found =>
            simp only [Option.map_some, stopsAt_offset? _ _]
            cases offset? found.2 with
            | none => rfl
            | some offset =>
                simp only [Option.map_some]
                split
                · rfl
                · rfl
      · simp only [if_neg hc, List.cons_append]

/-- **A date with a time, or either of them, ends with its line.** -/
theorem stopsAt_moment? : StopsAt '\n' moment? := by
  intro cs more
  simp only [moment?, stopsAt_date? _ _, stopsAt_clock? _ _]
  cases date? cs with
  | none => simp only [Option.map_none, Option.map_map, Function.comp_def]
  | some found =>
      simp only [Option.map_some, timeAfter_append_newline]
      split
      · rfl
      · rfl

/-! ### Numbers -/

theorem stopsAt_places? : StopsAt '\n' places? := by
  intro cs more
  cases cs with
  | nil => rfl
  | cons d ds =>
      by_cases hd : d = '.'
      · subst hd
        exact stopsAt_digits? Char.isDigit rfl ds more
      · simp [places?, hd]

theorem stopsAt_exponent? : StopsAt '\n' exponent? := by
  intro cs more
  cases cs with
  | nil => rfl
  | cons d ds =>
      simp only [List.cons_append, exponent?, Text.splitSign_append_stop endsNumber_newline,
        stopsAt_digits? Char.isDigit rfl _ _, Option.bind_eq_bind, Option.bind_map,
        Function.comp_def, Option.pure_def]
      split
      · simp only [Option.map_bind, Function.comp_def, Option.map_some]
      · rfl

/-- **A number with a fraction or an exponent ends with its line.** -/
theorem stopsAt_fraction? : StopsAt '\n' fraction? := by
  intro cs more
  simp only [fraction?, Text.splitSign_append_stop endsNumber_newline, stopsAt_whole? _ _,
    stopsAt_places? _ _, stopsAt_exponent? _ _, Option.bind_eq_bind, Option.bind_map, Option.map_bind,
    Function.comp_def]
  refine congrArg _ (funext fun digits => congrArg _ (funext fun places =>
    congrArg _ (funext fun ⟨exponent, rest⟩ => ?_)))
  dsimp only
  split
  · rfl
  · split
    · rfl
    · rfl

theorem stopsAt_bounded? (n : Int) : StopsAt '\n' (bounded? n) := by
  intro cs more
  simp only [bounded?]
  split
  · rfl
  · rfl

/-- An integer in another base ends with its line when a newline is no digit of the base. -/
theorem stopsAt_based? (base : Nat) {isDigit : Char → Bool} (hd : isDigit '\n' = false) :
    StopsAt '\n' (based? base isDigit) := by
  intro cs more
  simp only [based?, stopsAt_digits? _ hd _ _, stopsAt_bounded? _ _ _, Option.bind_eq_bind,
    Option.bind_map, Option.map_bind, Function.comp_def]

/-- A decimal integer. -/
def decimal? (cs : List Char) : Option (Value × List Char) := do
  let (negative, rest) := Number.splitSign cs
  let (digits, rest) ← whole? rest
  let n : Int := Number.decimalValue digits
  bounded? (if negative then -n else n) rest

theorem stopsAt_decimal? : StopsAt '\n' decimal? := by
  intro cs more
  simp only [decimal?, Text.splitSign_append_stop endsNumber_newline, stopsAt_whole? _ _,
    stopsAt_bounded? _ _ _, Option.bind_eq_bind, Option.bind_map, Option.map_bind, Function.comp_def]

/-- Two characters before a newline stand in the line. -/
theorem exists_of_append_newline {cs more rest : List Char} {a b : Char} (ha : a ≠ '\n') (hb : b ≠ '\n')
    (h : cs ++ '\n' :: more = a :: b :: rest) : ∃ tail, cs = a :: b :: tail := by
  match cs with
  | [] => cases h; exact absurd rfl ha
  | [_] => cases h; exact absurd rfl hb
  | c :: d :: tail => cases h; exact ⟨tail, rfl⟩

/-- **An integer ends with its line.** -/
theorem stopsAt_integer? : StopsAt '\n' integer? := by
  intro cs more
  fun_cases integer? cs with
  | case1 rest => exact stopsAt_based? 16 rfl rest more
  | case2 rest => exact stopsAt_based? 8 rfl rest more
  | case3 rest => exact stopsAt_based? 2 rfl rest more
  | case4 _ negative rest hsign hx ho hb =>
      -- the mark of a base does not come about by what follows the line
      have hdecimal : integer? (cs ++ '\n' :: more) = decimal? (cs ++ '\n' :: more) := by
        unfold integer?
        split
        · next h =>
          obtain ⟨tail, rfl⟩ := exists_of_append_newline (by decide) (by decide) h
          exact (hx tail rfl).elim
        · next h =>
          obtain ⟨tail, rfl⟩ := exists_of_append_newline (by decide) (by decide) h
          exact (ho tail rfl).elim
        · next h =>
          obtain ⟨tail, rfl⟩ := exists_of_append_newline (by decide) (by decide) h
          exact (hb tail rfl).elim
        · rfl
      rw [hdecimal]
      exact stopsAt_decimal? cs more

/-! ### Words -/

/-- A word without a newline is skipped only within the line. -/
theorem skipStopsAt_afterWord? {word : String} (hw : '\n' ∉ word.toList) :
    SkipStopsAt '\n' (afterWord? word) := by
  intro cs more
  simp only [afterWord?, Text.isPrefixOf_append_stop hw]
  split
  · next hpre =>
    have hlen := (List.isPrefixOf_iff_prefix.mp hpre).length_le
    rw [String.length_toList] at hlen
    rw [List.drop_append_of_le_length hlen]
    rfl
  · rfl

/-- Infinity and what is no number end with the line, too. -/
theorem stopsAt_special? : StopsAt '\n' special? := by
  intro cs more
  have hinf := skipStopsAt_afterWord? (show '\n' ∉ "inf".toList by decide)
  have hnan := skipStopsAt_afterWord? (show '\n' ∉ "nan".toList by decide)
  simp only [special?, Text.splitSign_append_stop endsNumber_newline, hinf _ _, hnan _ _]
  cases afterWord? "inf" (Number.splitSign cs).2 with
  | none => simp only [Option.map_none, Option.map_map, Function.comp_def]
  | some rest => rfl

/-- **A scalar that is no string ends with its line.** -/
theorem stopsAt_scalar? : StopsAt '\n' scalar? := by
  intro cs more
  have htrue := skipStopsAt_afterWord? (show '\n' ∉ "true".toList by decide)
  have hfalse := skipStopsAt_afterWord? (show '\n' ∉ "false".toList by decide)
  simp only [scalar?, htrue _ _, hfalse _ _, stopsAt_special? _ _, stopsAt_moment? _ _,
    stopsAt_fraction? _ _, stopsAt_integer? _ _]
  cases afterWord? "true" cs with
  | some rest => rfl
  | none =>
      cases afterWord? "false" cs with
      | some rest => rfl
      | none =>
          simp only [Option.map_none]
          cases special? cs with
          | some found => rfl
          | none =>
              cases moment? cs with
              | some found => rfl
              | none =>
                  cases fraction? cs with
                  | some found => rfl
                  | none =>
                      cases integer? cs with
                      | some found => rfl
                      | none => rfl

end Exact

end PrefixMatch.Toml
