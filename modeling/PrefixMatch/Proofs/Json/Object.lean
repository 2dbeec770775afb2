import PrefixMatch.Json.Reader
import PrefixMatch.Proofs.Fields
import PrefixMatch.Proofs.Json.Text
import PrefixMatch.Text.Split

/-!
# JSON — objects of scalars

`Json.KeysObject keys text` says that `text` is an object with the given keys, each in one of its written
forms and in front of any scalar value, with any blanks between its parts.  Such an object is read with
its keys in order (`read?_of_keysObject`): a scalar ends at the comma, the brace or the blank behind it,
because none of these continues a word, a number or a string.
-/

namespace PrefixMatch.Json

open Text (StopsAt SkipStopsAt EndsNumber)

/-! ### Scalars -/

/-- The text of a scalar value: a number, a string, a truth value or null. -/
def IsScalarText (v : List Char) : Prop :=
  ∃ j, scalar v = some (j, [])

/-- The parts of a number behind its sign. -/
def unsignedParts? (negative : Bool) (cs : List Char) : Option (NumberParts × List Char) :=
  let whole := cs.takeWhile Char.isDigit
  if whole.isEmpty || (whole.head? == some '0' && decide (1 < whole.length)) then none
  else
    (fractionPart? (cs.dropWhile Char.isDigit)).bind fun (fraction, rest) =>
      (exponentPart? rest).map fun (exponent, rest) => (⟨negative, whole, fraction, exponent⟩, rest)

theorem numberParts?_minus (cs : List Char) : numberParts? ('-' :: cs) = unsignedParts? true cs := by
  simp only [numberParts?, unsignedParts?]
  split
  · rfl
  · simp only [Option.pure_def, Option.bind_eq_bind, Option.map_eq_bind, Function.comp_def]

theorem numberParts?_of_ne_minus {cs : List Char} (h : cs.head? ≠ some '-') :
    numberParts? cs = unsignedParts? false cs := by
  have hm : ∀ rest, cs ≠ '-' :: rest := by rintro rest rfl; exact h rfl
  simp only [numberParts?, unsignedParts?]
  split
  · rfl
  · simp only [Option.pure_def, Option.bind_eq_bind, Option.map_eq_bind, Function.comp_def]

section Number

variable {c : Char} (hc : EndsNumber c)
include hc

theorem stopsAt_exponentPart? : StopsAt c exponentPart? := by
  intro cs more
  cases cs with
  | nil => simp [exponentPart?, hc.exponent]
  | cons d ds =>
      simp only [exponentPart?, List.cons_append, Text.splitSign_append_stop hc,
        Text.takeWhile_append_stop hc.digit, Text.dropWhile_append_stop hc.digit]
      split
      · split <;> rfl
      · rfl

theorem stopsAt_fractionPart? : StopsAt c fractionPart? := by
  intro cs more
  cases cs with
  | nil => simp [fractionPart?, hc.point]
  | cons d ds =>
      by_cases hp : d = '.'
      · subst hp
        simp only [fractionPart?, List.cons_append, Text.takeWhile_append_stop hc.digit,
          Text.dropWhile_append_stop hc.digit]
        split <;> rfl
      · simp [fractionPart?, hp]

theorem stopsAt_unsignedParts? (negative : Bool) : StopsAt c (unsignedParts? negative) := by
  intro cs more
  simp only [unsignedParts?, Text.takeWhile_append_stop hc.digit, Text.dropWhile_append_stop hc.digit,
    stopsAt_fractionPart? hc _ _, stopsAt_exponentPart? hc _ _, Option.bind_map, Function.comp_def,
    Option.map_map]
  split
  · rfl
  · simp only [Option.map_bind, Option.map_map, Function.comp_def]

theorem stopsAt_numberParts? : StopsAt c numberParts? := by
  intro cs more
  cases cs with
  | nil =>
      have hminus : (c :: more).head? ≠ some '-' := by simpa using hc.sign.1
      rw [List.nil_append, numberParts?_of_ne_minus hminus]
      simp only [unsignedParts?, List.takeWhile_cons, hc.digit]
      rfl
  | cons d ds =>
      by_cases hm : d = '-'
      · subst hm
        rw [List.cons_append, numberParts?_minus, numberParts?_minus, stopsAt_unsignedParts? hc true]
      · have hhead : (d :: ds).head? ≠ some '-' := by simpa using hm
        rw [numberParts?_of_ne_minus hhead, ← stopsAt_unsignedParts? hc false]
        exact numberParts?_of_ne_minus hhead

theorem stopsAt_readNumber? : StopsAt c readNumber? := by
  intro cs more
  simp only [readNumber?, stopsAt_numberParts? hc _ _, Option.bind_eq_bind, Option.bind_map,
    Option.map_bind, Function.comp_def, Option.pure_def, Option.map_some]

end Number

theorem skipStopsAt_afterWord? {word : List Char} {c : Char} (hc : c ∉ word) :
    SkipStopsAt c (afterWord? word) := by
  intro cs more
  simp only [afterWord?, Text.isPrefixOf_append_stop hc]
  split
  · next hw =>
    have hlen := (List.isPrefixOf_iff_prefix.mp hw).length_le
    rw [List.drop_append_of_le_length hlen]
    rfl
  · rfl

/-- What a number is read as. -/
theorem numberValue?_cases {parts : NumberParts} {j : Json} (h : numberValue? parts = some j) :
    (∃ n, j = .int n) ∨ ∃ d, j = .float d := by
  simp only [numberValue?] at h
  split at h
  · split at h
    · cases h
      exact .inl ⟨_, rfl⟩
    · split at h
      · cases h
        exact .inr ⟨_, rfl⟩
      · cases h
        exact .inl ⟨_, rfl⟩
  split at h
  · obtain ⟨d, -, rfl⟩ := Option.map_eq_some_iff.mp h
    exact .inr ⟨d, rfl⟩
  · split at h
    · split at h
      · cases h
      · cases h
        exact .inr ⟨_, rfl⟩
    · obtain ⟨d, -, rfl⟩ := Option.map_eq_some_iff.mp h
      exact .inr ⟨d, rfl⟩

/-- A scalar is no array and no object. -/
theorem not_nested_of_scalar {cs rest : List Char} {j : Json} (h : scalar cs = some (j, rest)) :
    (∀ items, j ≠ .array items) ∧ ∀ members, j ≠ .object members := by
  unfold scalar at h
  split at h
  case h_5 =>
    simp only [readNumber?, Option.bind_eq_bind, Option.bind_eq_some_iff, Option.pure_def,
      Option.some.injEq, Prod.mk.injEq] at h
    obtain ⟨_, -, _, hv, rfl, -⟩ := h
    rcases numberValue?_cases hv with ⟨n, rfl⟩ | ⟨d, rfl⟩
    · exact ⟨nofun, nofun⟩
    · exact ⟨nofun, nofun⟩
  all_goals
    obtain ⟨_, -, heq⟩ := Option.map_eq_some_iff.mp h
    cases heq
    exact ⟨nofun, nofun⟩

/-! ### Strings -/

/-- Nothing behind the closing quote has a part in a string. -/
theorem rawText?_append {cs raw rest : List Char} (h : rawText? cs = some (raw, rest))
    (more : List Char) : rawText? (cs ++ more) = some (raw, rest ++ more) := by
  fun_induction rawText? cs generalizing raw rest with
  | case1 => cases h
  | case2 rest' => cases h; rfl
  | case3 => cases h
  | case4 c cs ih =>
      obtain ⟨⟨r, s⟩, hr, heq⟩ := Option.map_eq_some_iff.mp h
      cases heq
      rw [List.cons_append, List.cons_append, rawText?, ih hr]
      rfl
  | case5 c cs hq hb hb' ih =>
      obtain ⟨⟨r, s⟩, hr, heq⟩ := Option.map_eq_some_iff.mp h
      cases heq
      have hne : c ≠ '\\' := by
        rintro rfl
        cases cs with
        | nil => exact hb rfl rfl
        | cons d ds => exact hb' d ds rfl rfl
      rw [List.cons_append, rawText?_cons hq hne, ih hr]
      rfl

theorem readText?_append {cs rest : List Char} {s : String} (h : readText? cs = some (s, rest))
    (more : List Char) : readText? (cs ++ more) = some (s, rest ++ more) := by
  simp only [readText?, Option.bind_eq_bind, Option.bind_eq_some_iff, Option.pure_def,
    Option.some.injEq, Prod.mk.injEq] at h
  obtain ⟨⟨raw, rest'⟩, hraw, pieces, hpieces, chars, hchars, rfl, rfl⟩ := h
  simp only [readText?, rawText?_append hraw more, Option.bind_eq_bind, Option.bind_some, hpieces,
    hchars, Option.pure_def]

/-! ### Blanks -/

theorem skipBlanks_append {blanks : List Char} (h : ∀ c ∈ blanks, isBlank c = true) (cs : List Char) :
    skipBlanks (blanks ++ cs) = skipBlanks cs :=
  List.dropWhile_append_of_pos h

theorem skipBlanks_cons {c : Char} (h : isBlank c = false) (cs : List Char) :
    skipBlanks (c :: cs) = c :: cs := by
  simp [skipBlanks, h]

/-! ### Scalars in an object -/

/-- A character behind a scalar in an object: a comma, a brace or a blank. -/
structure EndsScalar (c : Char) : Prop extends EndsNumber c where
  word : ∀ word ∈ ["null", "true", "false"], c ∉ word.toList

theorem endsScalar_comma : EndsScalar ',' :=
  ⟨⟨rfl, by decide, by decide, by decide⟩, by decide⟩

theorem endsScalar_brace : EndsScalar '\x7d' :=
  ⟨⟨rfl, by decide, by decide, by decide⟩, by decide⟩

theorem endsScalar_blank {c : Char} (h : isBlank c = true) : EndsScalar c := by
  simp only [isBlank, Bool.or_eq_true, beq_iff_eq] at h
  rcases h with ((rfl | rfl) | rfl) | rfl
  all_goals exact ⟨⟨rfl, by decide, by decide, by decide⟩, by decide⟩

/-- **A scalar ends in front of a comma, a brace or a blank.** -/
theorem scalar_append {c : Char} (hc : EndsScalar c) {v : List Char} {j : Json}
    (hv : scalar v = some (j, [])) (more : List Char) :
    scalar (v ++ c :: more) = some (j, c :: more) := by
  have hword : ∀ word ∈ ["null", "true", "false"], ∀ {k : Json},
      (afterWord? word.toList v).map (fun rest => (k, rest)) = some (j, []) →
      (afterWord? word.toList (v ++ c :: more)).map (fun rest => (k, rest)) = some (j, c :: more) := by
    intro word hmem k hk
    obtain ⟨rest, hrest, heq⟩ := Option.map_eq_some_iff.mp hk
    cases heq
    rw [skipStopsAt_afterWord? (hc.word word hmem), hrest]
    rfl
  fun_cases scalar v with
  | case1 tail => exact hword "null" (by simp) hv
  | case2 tail => exact hword "true" (by simp) hv
  | case3 tail => exact hword "false" (by simp) hv
  | case4 rest =>
      obtain ⟨⟨s, tail⟩, hs, heq⟩ := Option.map_eq_some_iff.mp hv
      cases heq
      simp only [List.cons_append, scalar, readText?_append hs, Option.map_some, List.nil_append]
  | case5 _ hn ht hf hq =>
      cases v with
      | nil => cases hv
      | cons d ds =>
          have hother : ∀ cs, scalar (d :: cs) = readNumber? (d :: cs) := fun cs => by
            unfold scalar
            split
            · next h => cases h; exact (hn ds rfl).elim
            · next h => cases h; exact (ht ds rfl).elim
            · next h => cases h; exact (hf ds rfl).elim
            · next h => cases h; exact (hq ds rfl).elim
            · rfl
          rw [hother] at hv
          rw [List.cons_append, hother]
          exact (stopsAt_readNumber? hc.toEndsNumber).whole hv more

/-- What a scalar does not start with. -/
theorem head_of_scalar {d : Char} {ds : List Char} {j : Json} {rest : List Char}
    (h : scalar (d :: ds) = some (j, rest)) : isBlank d = false ∧ d ≠ '[' ∧ d ≠ '\x7b' := by
  have hnone : ∀ c, c.isDigit = false → c ≠ '-' → readNumber? (c :: ds) = none := by
    intro c hc hm
    have hhead : (c :: ds).head? ≠ some '-' := by simpa using hm
    simp [readNumber?, numberParts?_of_ne_minus hhead, unsignedParts?, hc]
  refine ⟨?_, ?_, ?_⟩
  · cases hb : isBlank d with
    | false => rfl
    | true =>
        simp only [isBlank, Bool.or_eq_true, beq_iff_eq] at hb
        rcases hb with ((rfl | rfl) | rfl) | rfl <;>
          exact absurd ((hnone _ rfl (by decide)).symm.trans h) nofun
  · rintro rfl; exact absurd ((hnone _ rfl (by decide)).symm.trans h) nofun
  · rintro rfl; exact absurd ((hnone _ rfl (by decide)).symm.trans h) nofun

/-- A scalar is read as a value in front of blanks and a comma or a brace, whatever nesting is still
allowed. -/
theorem value_scalar {c : Char} (hc : EndsScalar c) {v : List Char} {j : Json}
    (hv : scalar v = some (j, [])) (depth : Nat) {blanks : List Char}
    (hb : ∀ c ∈ blanks, isBlank c = true) (more : List Char) :
    value depth (skipBlanks (v ++ (blanks ++ c :: more))) = some (j, blanks ++ c :: more) := by
  obtain ⟨e, rest, hrest, he⟩ : ∃ e rest, blanks ++ c :: more = e :: rest ∧ EndsScalar e := by
    cases blanks with
    | nil => exact ⟨c, more, rfl, hc⟩
    | cons b bs => exact ⟨b, bs ++ c :: more, rfl, endsScalar_blank (hb b List.mem_cons_self)⟩
  cases v with
  | nil => cases hv
  | cons d ds =>
      obtain ⟨hblank, hopen, hbrace⟩ := head_of_scalar hv
      have hv := scalar_append he hv rest
      rw [hrest]
      rw [List.cons_append] at hv ⊢
      rw [skipBlanks_cons hblank]
      cases depth with
      | zero => exact hv
      | succ depth =>
          unfold value
          split
          · next h => cases h; exact absurd rfl hopen
          · next h => cases h; exact absurd rfl hbrace
          · exact hv

/-! ### Members -/

/-- The parts of the text of a member. -/
structure MemberText where
  /-- What stands between the quotes of the key. -/
  raw : List Char
  value : List Char
  /-- The blanks before the key. -/
  lead : List Char := []
  /-- The blanks before the colon. -/
  gap : List Char := []
  /-- The blanks before the value. -/
  space : List Char := []
  /-- The blanks behind the value. -/
  trail : List Char := []

namespace MemberText

/-- The text of a member. -/
def text (m : MemberText) : List Char :=
  m.lead ++ '"' :: (m.raw ++ '"' :: (m.gap ++ ':' :: (m.space ++ (m.value ++ m.trail))))

/-- The member has the given key, in one of its written forms, and a scalar as its value. -/
structure Renders (key : String) (m : MemberText) : Prop where
  key : Spells key.toList m.raw
  value : IsScalarText m.value
  blanks : ∀ c ∈ m.lead ++ m.gap ++ m.space ++ m.trail, isBlank c = true

end MemberText

/-- A text is an object with the given keys in the given order, each in front of a scalar. -/
def KeysObject (keys : List String) (text : List Char) : Prop :=
  ∃ (members : List MemberText) (before inner behind : List Char),
    List.Forall₂ MemberText.Renders keys members ∧
      (∀ c ∈ before ++ inner ++ behind, isBlank c = true) ∧
      text = before ++ '\x7b' :: (inner ++ (Text.join ',' (members.map MemberText.text) ++
        '\x7d' :: behind))

/-- A member is read up to the comma or the brace behind it and the blanks before that. -/
theorem member_text {c : Char} (hc : EndsScalar c) {key : String} {m : MemberText}
    (hm : m.Renders key) : ∃ j, ∀ depth more,
      member (value depth) (skipBlanks (m.text ++ c :: more)) =
        some ((key, j), m.trail ++ c :: more) := by
  obtain ⟨hkey, ⟨j, hj⟩, hblanks⟩ := hm
  simp only [List.forall_mem_append] at hblanks
  obtain ⟨⟨⟨hlead, hgap⟩, hspace⟩, htrail⟩ := hblanks
  refine ⟨j, fun depth more => ?_⟩
  have hquote : ∀ cs, skipBlanks ('"' :: cs) = '"' :: cs := fun _ => rfl
  have hcolon : ∀ cs, skipBlanks (':' :: cs) = ':' :: cs := fun _ => rfl
  simp only [MemberText.text, List.append_assoc, List.cons_append, skipBlanks_append hlead, hquote,
    member, readText?_of_spells hkey, Option.bind_eq_bind, Option.bind_some, skipBlanks_append hgap,
    hcolon, skipBlanks_append hspace, value_scalar hc hj depth htrail more, String.ofList_toList,
    Option.pure_def]

/-- The members of an object are read up to its brace. -/
theorem separated_members {keys : List String} {members : List MemberText}
    (h : List.Forall₂ MemberText.Renders keys members) (hne : members ≠ []) (depth : Nat) {fuel : Nat}
    (hfuel : members.length ≤ fuel) (behind : List Char) :
    ∃ fields, Fields.keys fields = keys ∧
      separated (member (value depth)) '\x7d' fuel
        (Text.join ',' (members.map MemberText.text) ++ '\x7d' :: behind) =
          some (fields, behind) := by
  induction h generalizing fuel with
  | nil => exact absurd rfl hne
  | @cons key m keys members hm hrest ih =>
      obtain ⟨fuel, rfl⟩ : ∃ n, fuel = n + 1 := ⟨fuel - 1, by simp at hfuel; omega⟩
      have htrail : ∀ c ∈ m.trail, isBlank c = true := fun c hc =>
        hm.blanks c (List.mem_append_right _ hc)
      cases members with
      | nil =>
          cases hrest
          obtain ⟨j, hj⟩ := member_text endsScalar_brace hm
          refine ⟨[(key, j)], rfl, ?_⟩
          have hbrace : ∀ more, skipBlanks ('\x7d' :: more) = '\x7d' :: more := fun _ => rfl
          simp only [List.map_cons, List.map_nil, Text.join, separated, hj, Option.bind_eq_bind,
            Option.bind_some, skipBlanks_append htrail, hbrace]
          rfl
      | cons m' members =>
          obtain ⟨fields, hkeys, hread⟩ := ih (List.cons_ne_nil _ _) (by simpa using hfuel)
          obtain ⟨j, hj⟩ := member_text endsScalar_comma hm
          refine ⟨(key, j) :: fields, by rw [← hkeys]; rfl, ?_⟩
          have hcomma : ∀ more, skipBlanks (',' :: more) = ',' :: more := fun _ => rfl
          simp only [List.map_cons] at hread
          simp only [List.map_cons, Text.join, List.append_assoc, List.cons_append, separated, hj,
            Option.bind_eq_bind, Option.bind_some, skipBlanks_append htrail, hcomma, if_true, hread]
          rfl

/-- There are no more pieces than characters, where no piece is empty. -/
theorem length_le_length_join (sep : Char) {pieces : List (List Char)} (h : ∀ p ∈ pieces, p ≠ []) :
    pieces.length ≤ (Text.join sep pieces).length := by
  induction pieces with
  | nil => exact Nat.le_refl _
  | cons p ps ih =>
      have hp : 0 < p.length := List.length_pos_iff.mpr (h p List.mem_cons_self)
      have hps := ih fun q hq => h q (List.mem_cons_of_mem p hq)
      cases ps with
      | nil => exact hp
      | cons q qs => simp only [Text.join, List.length_append, List.length_cons] at hps ⊢; omega

/-- The blanks before the first member have no part in it. -/
theorem skipBlanks_join {m : MemberText} (hlead : ∀ c ∈ m.lead, isBlank c = true)
    (ms : List MemberText) (more : List Char) :
    skipBlanks (Text.join ',' ((m :: ms).map MemberText.text) ++ more) =
      Text.join ',' (({ m with lead := [] } :: ms).map MemberText.text) ++ more := by
  have hquote : ∀ cs, skipBlanks ('"' :: cs) = '"' :: cs := fun _ => rfl
  cases ms with
  | nil =>
      simp only [List.map_cons, List.map_nil, Text.join, MemberText.text, List.append_assoc,
        skipBlanks_append hlead, List.cons_append, hquote, List.nil_append]
  | cons m' ms =>
      simp only [List.map_cons, Text.join, MemberText.text, List.append_assoc,
        skipBlanks_append hlead, List.cons_append, hquote, List.nil_append]

/-- What stands between the braces of an object is read with its keys in order. -/
theorem enclosed_members {keys : List String} {members : List MemberText}
    (h : List.Forall₂ MemberText.Renders keys members) {inner : List Char}
    (hinner : ∀ c ∈ inner, isBlank c = true) (depth : Nat) (behind : List Char) :
    ∃ fields, Fields.keys fields = keys ∧
      enclosed (member (value depth)) '\x7d'
        (inner ++ (Text.join ',' (members.map MemberText.text) ++ '\x7d' :: behind)) =
          some (fields, behind) := by
  cases members with
  | nil =>
      cases h
      refine ⟨[], rfl, ?_⟩
      have hbrace : skipBlanks ('\x7d' :: behind) = '\x7d' :: behind := rfl
      simp only [enclosed, List.map_nil, Text.join, List.nil_append, skipBlanks_append hinner, hbrace,
        if_true]
  | cons m ms =>
      cases h with
      | @cons key _ keys _ hfirst hrest =>
          have hlead : ∀ c ∈ m.lead, isBlank c = true := fun c hc =>
            hfirst.blanks c (by simp [hc])
          -- the first member may as well stand without the blanks before it
          have hbare : MemberText.Renders key { m with lead := [] } :=
            ⟨hfirst.key, hfirst.value, fun c hc => hfirst.blanks c (by simp at hc ⊢; tauto)⟩
          have hall := List.Forall₂.cons hbare hrest
          have hpieces : ∀ p ∈ ({ m with lead := [] } :: ms).map MemberText.text, p ≠ [] := by
            intro p hp
            obtain ⟨m', -, rfl⟩ := List.mem_map.mp hp
            exact List.append_ne_nil_of_right_ne_nil _ (List.cons_ne_nil _ _)
          have hlen := length_le_length_join ',' hpieces
          obtain ⟨tail, htail⟩ : ∃ tail,
              Text.join ',' (({ m with lead := [] } :: ms).map MemberText.text) = '"' :: tail := by
            cases ms with
            | nil => exact ⟨_, rfl⟩
            | cons m' ms => exact ⟨_, rfl⟩
          have hfuel : ({ m with lead := [] } :: ms).length ≤ (tail ++ '\x7d' :: behind).length + 1 := by
            simp only [htail, List.length_map, List.length_cons, List.length_append] at hlen ⊢
            omega
          obtain ⟨fields, hkeys, hread⟩ :=
            separated_members hall (List.cons_ne_nil _ _) depth hfuel behind
          refine ⟨fields, hkeys, ?_⟩
          have hopen : '"' ≠ '\x7d' := by decide
          rw [htail, List.cons_append] at hread
          rw [enclosed, skipBlanks_append hinner, skipBlanks_join hlead, htail, List.cons_append]
          simp only [if_neg hopen, hread]

/-- **An object of scalars is read with its keys in order.** -/
theorem read?_of_keysObject {keys : List String} {text : List Char} (h : KeysObject keys text)
    (hd : keys.Nodup) : ∃ fields, Fields.keys fields = keys ∧ read? text = some (.object fields) := by
  obtain ⟨members, before, inner, behind, hm, hblanks, rfl⟩ := h
  simp only [List.forall_mem_append] at hblanks
  obtain ⟨⟨hbefore, hinner⟩, hbehind⟩ := hblanks
  obtain ⟨fields, hkeys, hread⟩ := enclosed_members hm hinner 126 behind
  refine ⟨fields, hkeys, ?_⟩
  have hput : fields.foldl (fun table f => Fields.put f.1 f.2 table) [] = fields :=
    Fields.foldl_put [] (by rw [List.nil_append, hkeys]; exact hd)
  have hvalue : ∀ more, value maxDepth (skipBlanks ('\x7b' :: more)) =
      (enclosed (member (value 126)) '\x7d' more).map fun r =>
        (.object (r.1.foldl (fun table f => Fields.put f.1 f.2 table) []), r.2) :=
    fun _ => rfl
  have hend : skipBlanks behind = [] := by
    have hskip := skipBlanks_append hbehind []
    rwa [List.append_nil] at hskip
  rw [read?, skipBlanks_append hbefore, hvalue, hread, Option.map_some]
  simp only [Option.bind_eq_bind, Option.bind_some, hend, List.isEmpty_nil, if_true,
    Option.pure_def]
  exact congrArg (fun members => some (Json.object members)) hput

end PrefixMatch.Json
