import Mathlib.Data.List.TakeWhile
import PrefixMatch.Proofs.Json.Object

/-!
# JSON — the members of an object

`Json.RootMembers members text` says that `text` is an object with the given members, as they stand in the
text: the keys in any of their written forms, the values whatever they hold, and a key as often as it is
written.  A text has at most one such list (`RootMembers.unique`), and a text that is read as an object has
one, of which the object keeps the last member for each key (`rootMembers_of_read?`).
-/

namespace PrefixMatch.Json

open Text (digitsValue? hexValue?)

/-! ### Strings that were read -/

/-- How the raw text before a closing quote starts. -/
theorem rawText?_eq_some {cs raw rest : List Char} (h : rawText? cs = some (raw, rest)) :
    (cs = '"' :: rest ∧ raw = []) ∨
      (∃ c tail raw', cs = '\\' :: c :: tail ∧ raw = '\\' :: c :: raw' ∧
        rawText? tail = some (raw', rest)) ∨
      ∃ c tail raw', c ≠ '"' ∧ c ≠ '\\' ∧ cs = c :: tail ∧ raw = c :: raw' ∧
        rawText? tail = some (raw', rest) := by
  fun_cases rawText? cs with
  | case1 => cases h
  | case2 tail => cases h; exact .inl ⟨rfl, rfl⟩
  | case3 => cases h
  | case4 c tail =>
      obtain ⟨⟨raw', _⟩, hraw, heq⟩ := Option.map_eq_some_iff.mp h
      cases heq
      exact .inr (.inl ⟨c, tail, raw', rfl, rfl, hraw⟩)
  | case5 c tail hq hb hb' =>
      have hne : c ≠ '\\' := by
        rintro rfl
        cases tail with
        | nil => exact hb rfl rfl
        | cons d ds => exact hb' d ds rfl rfl
      rw [rawText?_cons hq hne] at h
      obtain ⟨⟨raw', _⟩, hraw, heq⟩ := Option.map_eq_some_iff.mp h
      cases heq
      exact .inr (.inr ⟨c, tail, raw', hq, hne, rfl, rfl, hraw⟩)

/-- What is no quote and no backslash is the same in the text and in the raw text. -/
theorem rawText?_eq_append {ds cs raw rest : List Char} (hd : ∀ d ∈ ds, d ≠ '\\')
    (h : rawText? cs = some (ds ++ raw, rest)) :
    ∃ tail, cs = ds ++ tail ∧ rawText? tail = some (raw, rest) := by
  induction ds generalizing cs with
  | nil => exact ⟨cs, rfl, h⟩
  | cons d ds ih =>
      obtain ⟨hb, hds⟩ := List.forall_mem_cons.mp hd
      rcases rawText?_eq_some h with ⟨-, heq⟩ | ⟨c, tail, raw', -, heq, -⟩ |
        ⟨c, tail, raw', -, -, rfl, heq, hraw⟩
      · cases heq
      · exact absurd (List.cons.inj heq).1 hb
      · obtain ⟨rfl, rfl⟩ := List.cons.inj heq
        obtain ⟨tail, rfl, htail⟩ := ih hds hraw
        exact ⟨tail, rfl, htail⟩

/-- The text of a piece. -/
inductive PieceText : Piece → List Char → Prop
  | plain {c : Char} (hc : 0x20 ≤ c.toNat) (hq : c ≠ '"') (hb : c ≠ '\\') : PieceText (.char c) [c]
  | letter {c e : Char} (he : escaped? e = some c) : PieceText (.char c) ['\\', e]
  | unit {d₁ d₂ d₃ d₄ : Char} {n : Nat} (hn : digitsValue? 16 hexValue? [d₁, d₂, d₃, d₄] 0 = some n) :
      PieceText (.unit n) ['\\', 'u', d₁, d₂, d₃, d₄]

/-- A string ends, or its first piece stands at its start. -/
theorem pieces?_eq_some {cs raw rest : List Char} {ps : List Piece} (h : rawText? cs = some (raw, rest))
    (hps : pieces? raw = some ps) :
    (ps = [] ∧ cs = '"' :: rest) ∨
      ∃ p ps' text tail raw', ps = p :: ps' ∧ PieceText p text ∧ cs = text ++ tail ∧
        rawText? tail = some (raw', rest) ∧ pieces? raw' = some ps' := by
  rcases rawText?_eq_some h with ⟨rfl, rfl⟩ | ⟨c, tail, raw, rfl, rfl, hraw⟩ |
    ⟨c, tail, raw, hq, hb, rfl, rfl, hraw⟩
  · cases hps
    exact .inl ⟨rfl, rfl⟩
  · unfold pieces? at hps
    split at hps
    · next heq => cases heq
    · next a b c d more heq =>
      cases heq
      simp only [Option.bind_eq_bind, Option.bind_eq_some_iff, Option.pure_def, Option.some.injEq] at hps
      obtain ⟨n, hn, ps', hps', rfl⟩ := hps
      have hdigits : ∀ e ∈ [a, b, c, d], e ≠ '\\' := fun e he =>
        (plain_of_hexValue? (Text.isSome_of_digitsValue? hn e he)).2
      obtain ⟨tail, rfl, htail⟩ := rawText?_eq_append hdigits hraw
      exact .inr ⟨_, ps', _, tail, more, rfl, .unit hn, rfl, htail, hps'⟩
    · next e more hu heq =>
      cases heq
      simp only [Option.bind_eq_bind, Option.bind_eq_some_iff, Option.pure_def, Option.some.injEq] at hps
      obtain ⟨x, hx, ps', hps', rfl⟩ := hps
      exact .inr ⟨_, ps', _, tail, raw, rfl, .letter hx, rfl, hraw, hps'⟩
    · next c more hu hb heq => cases heq; exact absurd rfl (hb _ _ rfl)
  · have hpieces : pieces? (c :: raw) =
        if c.toNat < 0x20 then none else (pieces? raw).map (.char c :: ·) := by
      simp [pieces?, hb]
    rw [hpieces] at hps
    split at hps
    · cases hps
    · next hc =>
      obtain ⟨ps', hps', rfl⟩ := Option.map_eq_some_iff.mp hps
      exact .inr ⟨_, ps', _, tail, raw, rfl, .plain (Nat.not_lt.mp hc) hq hb, rfl, hraw, hps'⟩

/-- A piece at the start of a string. -/
theorem pieces?_eq_cons {cs raw rest : List Char} {p : Piece} {ps : List Piece}
    (h : rawText? cs = some (raw, rest)) (hps : pieces? raw = some (p :: ps)) :
    ∃ text tail raw', PieceText p text ∧ cs = text ++ tail ∧ rawText? tail = some (raw', rest) ∧
      pieces? raw' = some ps := by
  rcases pieces?_eq_some h hps with ⟨heq, -⟩ | ⟨p, ps, text, tail, raw', heq, hrest⟩
  · cases heq
  · cases heq
    exact ⟨text, tail, raw', hrest⟩

/-- A piece that is a character spells it. -/
theorem spells_char {c : Char} {s text spelled : List Char} (htext : PieceText (.char c) text)
    (h : Spells s spelled) : Spells (c :: s) (text ++ spelled) := by
  cases htext with
  | plain hc hq hb => exact .plain hc hq hb h
  | letter he => exact .letter he h

/-- A unit that has a character spells it. -/
theorem spells_unit {n : Nat} {c : Char} {s text spelled : List Char} (htext : PieceText (.unit n) text)
    (hc : Text.charOfNat? n = some c) (h : Spells s spelled) : Spells (c :: s) (text ++ spelled) := by
  cases htext with
  | unit hn => exact .unit (by rw [hn, Text.toNat_of_charOfNat? hc]) h

/-- The characters that the pieces of a string stand for are spelled by its text. -/
theorem spells_of_pieces? {ps : List Piece} {s cs raw rest : List Char} (h : rawText? cs = some (raw, rest))
    (hps : pieces? raw = some ps) (hs : ofPieces? ps = some s) :
    ∃ spelled, Spells s spelled ∧ cs = spelled ++ '"' :: rest := by
  fun_induction ofPieces? ps generalizing s cs raw with
  | case1 =>
      cases hs
      rcases pieces?_eq_some h hps with ⟨-, rfl⟩ | ⟨_, _, _, _, _, heq, -⟩
      · exact ⟨[], .nil, rfl⟩
      · cases heq
  | case2 c ps ih =>
      obtain ⟨more, hmore, rfl⟩ := Option.map_eq_some_iff.mp hs
      obtain ⟨text, tail, raw', htext, rfl, htail, hps'⟩ := pieces?_eq_cons h hps
      obtain ⟨spelled, hspelled, rfl⟩ := ih htail hps' hmore
      exact ⟨text ++ spelled, spells_char htext hspelled, (List.append_assoc _ _ _).symm⟩
  | case3 high low ps hh hl ih =>
      -- two surrogates make one character
      simp only [Option.bind_eq_bind, Option.bind_eq_some_iff, Option.pure_def, Option.some.injEq] at hs
      obtain ⟨c, hc, more, hmore, rfl⟩ := hs
      obtain ⟨text, tail, raw', hhigh, rfl, htail, hps'⟩ := pieces?_eq_cons h hps
      obtain ⟨text', tail', raw'', hlow, rfl, htail', hps''⟩ := pieces?_eq_cons htail hps'
      obtain ⟨spelled, hspelled, rfl⟩ := ih htail' hps'' hmore
      cases hhigh with
      | unit hhigh =>
          cases hlow with
          | unit hlow =>
              exact ⟨_, .surrogates hhigh hlow hh hl (Text.toNat_of_charOfNat? hc) hspelled, rfl⟩
  | case4 => cases hs
  | case5 n low ps hh ih =>
      simp only [Option.bind_eq_bind, Option.bind_eq_some_iff, Option.pure_def, Option.some.injEq] at hs
      obtain ⟨c, hc, more, hmore, rfl⟩ := hs
      obtain ⟨text, tail, raw', htext, rfl, htail, hps'⟩ := pieces?_eq_cons h hps
      obtain ⟨spelled, hspelled, rfl⟩ := ih htail hps' hmore
      exact ⟨text ++ spelled, spells_unit htext hc hspelled, (List.append_assoc _ _ _).symm⟩
  | case6 n ps hlow ih =>
      simp only [Option.bind_eq_bind, Option.bind_eq_some_iff, Option.pure_def, Option.some.injEq] at hs
      obtain ⟨c, hc, more, hmore, rfl⟩ := hs
      obtain ⟨text, tail, raw', htext, rfl, htail, hps'⟩ := pieces?_eq_cons h hps
      obtain ⟨spelled, hspelled, rfl⟩ := ih htail hps' hmore
      exact ⟨text ++ spelled, spells_unit htext hc hspelled, (List.append_assoc _ _ _).symm⟩

/-- **A string that was read is a written form of its text.** -/
theorem spells_of_readText? {cs rest : List Char} {s : String} (h : readText? cs = some (s, rest)) :
    ∃ raw, Spells s.toList raw ∧ cs = raw ++ '"' :: rest := by
  simp only [readText?, Option.bind_eq_bind, Option.bind_eq_some_iff, Option.pure_def,
    Option.some.injEq, Prod.mk.injEq] at h
  obtain ⟨⟨raw, _⟩, hraw, ps, hps, s, hs, rfl, rfl⟩ := h
  rw [String.toList_ofList]
  exact spells_of_pieces? hraw hps hs

/-! ### Members -/

/-- The value of a member, which may nest as deep as what an object holds. -/
def memberValue (cs : List Char) : Option (Json × List Char) :=
  value (maxDepth - 1) cs

/-- From the opening quote of a key to the end of the value: the key in one of its written forms, a colon
with any blanks around it, and any value. -/
inductive MemberAt : String × Json → List Char → List Char → Prop
  | mk {key : String} {v : Json} {raw gap space start rest : List Char} (hkey : Spells key.toList raw)
      (hgap : ∀ c ∈ gap, isBlank c = true) (hspace : ∀ c ∈ space, isBlank c = true)
      (hvalue : memberValue start = some (v, rest)) :
      MemberAt (key, v) ('"' :: (raw ++ '"' :: (gap ++ ':' :: (space ++ start)))) rest

/-- From the first member of an object to its closing brace: members with commas between them, with any
blanks around each member. -/
inductive MembersAt : List (String × Json) → List Char → List Char → Prop
  | last {member : String × Json} {lead trail cs rest : List Char} (hlead : ∀ c ∈ lead, isBlank c = true)
      (htrail : ∀ c ∈ trail, isBlank c = true) (hmember : MemberAt member cs (trail ++ '\x7d' :: rest)) :
      MembersAt [member] (lead ++ cs) rest
  | cons {member : String × Json} {members : List (String × Json)} {lead trail cs more rest : List Char}
      (hlead : ∀ c ∈ lead, isBlank c = true) (htrail : ∀ c ∈ trail, isBlank c = true)
      (hmember : MemberAt member cs (trail ++ ',' :: more)) (hmembers : MembersAt members more rest) :
      MembersAt (member :: members) (lead ++ cs) rest

/-- A whole text that is one object, with any blanks around it. -/
inductive RootMembers : List (String × Json) → List Char → Prop
  | empty {before inner behind : List Char} (hbefore : ∀ c ∈ before, isBlank c = true)
      (hinner : ∀ c ∈ inner, isBlank c = true) (hbehind : ∀ c ∈ behind, isBlank c = true) :
      RootMembers [] (before ++ '\x7b' :: (inner ++ '\x7d' :: behind))
  | members {members : List (String × Json)} {before cs behind : List Char}
      (hbefore : ∀ c ∈ before, isBlank c = true) (hbehind : ∀ c ∈ behind, isBlank c = true)
      (hmembers : MembersAt members cs behind) : RootMembers members (before ++ '\x7b' :: cs)

/-! ### Members that were read -/

/-- Where something stands behind blanks. -/
theorem exists_of_skipBlanks {cs rest : List Char} (h : skipBlanks cs = rest) :
    ∃ blanks, (∀ c ∈ blanks, isBlank c = true) ∧ cs = blanks ++ rest :=
  ⟨cs.takeWhile isBlank, fun _ hc => List.mem_takeWhile_imp hc,
    h ▸ (List.takeWhile_append_dropWhile).symm⟩

theorem memberAt_of_member {cs rest : List Char} {f : String × Json}
    (h : member memberValue cs = some (f, rest)) : MemberAt f cs rest := by
  unfold member at h
  split at h
  · simp only [Option.bind_eq_bind, Option.bind_eq_some_iff] at h
    obtain ⟨⟨key, tail⟩, hkey, h⟩ := h
    obtain ⟨raw, hraw, rfl⟩ := spells_of_readText? hkey
    split at h
    · next after hcolon =>
      simp only [Option.bind_eq_some_iff, Option.pure_def, Option.some.injEq, Prod.mk.injEq] at h
      obtain ⟨⟨v, rest⟩, hvalue, rfl, rfl⟩ := h
      obtain ⟨gap, hgap, rfl⟩ := exists_of_skipBlanks hcolon
      obtain ⟨space, hspace, heq⟩ := exists_of_skipBlanks (Eq.refl (skipBlanks after))
      rw [heq]
      exact .mk hraw hgap hspace hvalue
    · cases h
  · cases h

theorem membersAt_of_separated {fuel : Nat} {cs rest : List Char} {fs : List (String × Json)}
    (h : separated (member memberValue) '\x7d' fuel cs = some (fs, rest)) : MembersAt fs cs rest := by
  induction fuel generalizing cs fs with
  | zero => cases h
  | succ fuel ih =>
      simp only [separated, Option.bind_eq_bind, Option.bind_eq_some_iff] at h
      obtain ⟨⟨f, tail⟩, hf, h⟩ := h
      obtain ⟨lead, hlead, heq⟩ := exists_of_skipBlanks (Eq.refl (skipBlanks cs))
      have hf := memberAt_of_member hf
      rw [heq]
      split at h
      · next c after htail =>
        obtain ⟨trail, htrail, rfl⟩ := exists_of_skipBlanks htail
        split at h
        · next hc =>
          subst hc
          simp only [Option.bind_eq_some_iff, Option.pure_def, Option.some.injEq, Prod.mk.injEq] at h
          obtain ⟨⟨fs, rest⟩, hfs, rfl, rfl⟩ := h
          exact .cons hlead htrail hf (ih hfs)
        split at h
        · next hc =>
          subst hc
          cases h
          exact .last hlead htrail hf
        · cases h
      · cases h

/-- Blanks before the first member are blanks around it. -/
theorem MembersAt.blanks {fs : List (String × Json)} {cs rest blanks : List Char}
    (hblanks : ∀ c ∈ blanks, isBlank c = true) (h : MembersAt fs cs rest) :
    MembersAt fs (blanks ++ cs) rest := by
  cases h with
  | last hlead htrail hmember =>
      rw [← List.append_assoc]
      exact .last (List.forall_mem_append.mpr ⟨hblanks, hlead⟩) htrail hmember
  | cons hlead htrail hmember hmembers =>
      rw [← List.append_assoc]
      exact .cons (List.forall_mem_append.mpr ⟨hblanks, hlead⟩) htrail hmember hmembers

/-- A value that is an object is read from its opening brace on. -/
theorem value_eq_object {depth : Nat} {cs rest : List Char} {fields : List (String × Json)}
    (h : value (depth + 1) cs = some (.object fields, rest)) :
    ∃ inner members, cs = '\x7b' :: inner ∧
      enclosed (member (value depth)) '\x7d' inner = some (members, rest) ∧
      fields = members.foldl (fun fields (key, v) => Fields.put key v fields) [] := by
  unfold value at h
  split at h
  · obtain ⟨_, -, heq⟩ := Option.map_eq_some_iff.mp h
    cases heq
  · next inner =>
    obtain ⟨⟨members, _⟩, hmembers, heq⟩ := Option.map_eq_some_iff.mp h
    cases heq
    exact ⟨inner, members, rfl, hmembers, rfl⟩
  · exact absurd rfl ((not_nested_of_scalar h).2 fields)

/-- **A text that is read as an object has members, the last of which for each key make up the object.** -/
theorem rootMembers_of_read? {cs : List Char} {fields : List (String × Json)}
    (h : read? cs = some (.object fields)) :
    ∃ members, RootMembers members cs ∧
      fields = members.foldl (fun fields (key, v) => Fields.put key v fields) [] := by
  simp only [read?, Option.bind_eq_bind, Option.bind_eq_some_iff] at h
  obtain ⟨⟨v, behind⟩, hvalue, h⟩ := h
  split at h
  · next hend =>
    cases h
    obtain ⟨inner, members, hopen, henclosed, rfl⟩ := value_eq_object hvalue
    refine ⟨members, ?_, rfl⟩
    obtain ⟨before, hbefore, rfl⟩ := exists_of_skipBlanks hopen
    obtain ⟨blanks, hbehind, heq⟩ := exists_of_skipBlanks (List.isEmpty_iff.mp hend)
    rw [List.append_nil] at heq
    subst heq
    unfold enclosed at henclosed
    split at henclosed
    · next c tail hinner =>
      obtain ⟨blanks, hblanks, rfl⟩ := exists_of_skipBlanks hinner
      split at henclosed
      · next hc =>
        subst hc
        cases henclosed
        exact .empty hbefore hblanks hbehind
      · exact .members hbefore hbehind (.blanks hblanks (membersAt_of_separated henclosed))
    · cases henclosed
  · cases h

/-! ### Members that are there -/

/-- A value does not start with a blank. -/
theorem skipBlanks_of_value {depth : Nat} {cs rest : List Char} {v : Json}
    (h : value depth cs = some (v, rest)) : skipBlanks cs = cs := by
  cases cs with
  | nil => rfl
  | cons c cs =>
      refine skipBlanks_cons ?_ cs
      cases depth with
      | zero => exact (head_of_scalar h).1
      | succ depth =>
          unfold value at h
          split at h
          · next heq => cases heq; rfl
          · next heq => cases heq; rfl
          · exact (head_of_scalar h).1

theorem member_of_memberAt {cs rest : List Char} {f : String × Json} (h : MemberAt f cs rest) :
    member memberValue cs = some (f, rest) := by
  obtain ⟨hkey, hgap, hspace, hvalue⟩ := h
  have hcolon : ∀ cs, skipBlanks (':' :: cs) = ':' :: cs := fun _ => rfl
  simp only [member, readText?_of_spells hkey, Option.bind_eq_bind, Option.bind_some,
    skipBlanks_append hgap, hcolon, skipBlanks_append hspace, skipBlanks_of_value hvalue, hvalue,
    String.ofList_toList, Option.pure_def]

theorem skipBlanks_of_memberAt {cs rest lead : List Char} {f : String × Json} (h : MemberAt f cs rest)
    (hlead : ∀ c ∈ lead, isBlank c = true) : skipBlanks (lead ++ cs) = cs := by
  rw [skipBlanks_append hlead]
  cases h with
  | mk => rfl

/-- Members are read one after the other. -/
theorem MembersAt.first {fs : List (String × Json)} {cs rest : List Char} (h : MembersAt fs cs rest) :
    ∃ f tail, member memberValue (skipBlanks cs) = some (f, tail) ∧
      (fs = [f] ∧ skipBlanks tail = '\x7d' :: rest ∨
        ∃ fs' more, fs = f :: fs' ∧ skipBlanks tail = ',' :: more ∧ MembersAt fs' more rest) := by
  cases h with
  | @last f lead trail cs rest hlead htrail hmember =>
      refine ⟨f, trail ++ '\x7d' :: rest, ?_, .inl ⟨rfl, by rw [skipBlanks_append htrail]; rfl⟩⟩
      rw [skipBlanks_of_memberAt hmember hlead, member_of_memberAt hmember]
  | @cons f fs lead trail cs more rest hlead htrail hmember hmembers =>
      refine ⟨f, trail ++ ',' :: more, ?_, .inr ⟨fs, more, rfl, ?_, hmembers⟩⟩
      · rw [skipBlanks_of_memberAt hmember hlead, member_of_memberAt hmember]
      · rw [skipBlanks_append htrail]; rfl

theorem MembersAt.unique {fs gs : List (String × Json)} {cs rest rest' : List Char}
    (hf : MembersAt fs cs rest) (hg : MembersAt gs cs rest') : fs = gs := by
  induction fs generalizing cs gs with
  | nil => cases hf
  | cons f fs ih =>
      obtain ⟨f, tail, hread, hf⟩ := hf.first
      obtain ⟨g, tail', hread', hg⟩ := hg.first
      cases hread.symm.trans hread'
      -- a comma and a brace do not stand in one place
      rcases hf with ⟨heq, hbrace⟩ | ⟨fs, more, heq, hcomma, hfs⟩
      · cases heq
        rcases hg with ⟨rfl, -⟩ | ⟨_, _, -, hcomma, -⟩
        · rfl
        · cases hbrace.symm.trans hcomma
      · cases heq
        rcases hg with ⟨-, hbrace⟩ | ⟨gs, more', rfl, hcomma', hgs⟩
        · cases hbrace.symm.trans hcomma
        · cases hcomma.symm.trans hcomma'
          rw [ih hfs hgs]

/-- What stands behind the opening brace of an object. -/
theorem RootMembers.inner {fs : List (String × Json)} {cs : List Char} (h : RootMembers fs cs) :
    ∃ inner, skipBlanks cs = '\x7b' :: inner ∧
      (fs = [] ∧ (∃ tail, skipBlanks inner = '\x7d' :: tail) ∨ ∃ behind, MembersAt fs inner behind) := by
  cases h with
  | empty hbefore hinner hbehind =>
      exact ⟨_, by rw [skipBlanks_append hbefore]; rfl,
        .inl ⟨rfl, _, by rw [skipBlanks_append hinner]; rfl⟩⟩
  | members hbefore hbehind hmembers =>
      exact ⟨_, by rw [skipBlanks_append hbefore]; rfl, .inr ⟨_, hmembers⟩⟩

/-- The first member does not look like the end of an object. -/
theorem MembersAt.ne_brace {fs : List (String × Json)} {cs rest tail : List Char} (h : MembersAt fs cs rest) :
    skipBlanks cs ≠ '\x7d' :: tail := by
  intro heq
  obtain ⟨f, _, hread, -⟩ := h.first
  rw [heq] at hread
  cases hread

/-- **A text has at most one list of members.** -/
theorem RootMembers.unique {fs gs : List (String × Json)} {cs : List Char} (hf : RootMembers fs cs)
    (hg : RootMembers gs cs) : fs = gs := by
  obtain ⟨inner, hopen, hf⟩ := hf.inner
  obtain ⟨inner', hopen', hg⟩ := hg.inner
  cases hopen.symm.trans hopen'
  rcases hf with ⟨rfl, tail, htail⟩ | ⟨behind, hf⟩
  · rcases hg with ⟨rfl, -⟩ | ⟨behind, hg⟩
    · rfl
    · exact absurd htail hg.ne_brace
  · rcases hg with ⟨-, tail, htail⟩ | ⟨behind', hg⟩
    · exact absurd htail hf.ne_brace
    · exact hf.unique hg

end PrefixMatch.Json
