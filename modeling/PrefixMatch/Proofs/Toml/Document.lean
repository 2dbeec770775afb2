import Mathlib.Data.List.Forall2
import PrefixMatch.Proofs.Toml.Text
import PrefixMatch.Toml.Document

/-!
# Toml — documents line by line

`d.Writes line block` says that the text `block` is read as one line, whatever comes after it.  A document
that is put together from such texts is read as their lines (`lines?_flatten`, `sections?_flatten`).  The
texts are headers (`writes_table`), empty lines (`writes_blank`), and fields, which are put together from
a key and a value in turn (`writes_field`).
-/

namespace PrefixMatch.Toml

/-! ### Before the lines -/

/-- Without carriage returns there are no line ends of two characters. -/
theorem joinLineEnds_of_no_return {cs : List Char} (h : '\r' ∉ cs) : joinLineEnds cs = cs := by
  fun_induction joinLineEnds cs with
  | case1 => exact absurd List.mem_cons_self h
  | case2 c cs _ ih => rw [ih fun hmem => h (List.mem_cons_of_mem c hmem)]
  | case3 => rfl

theorem dropMark_of_head {cs : List Char} (h : cs.head? ≠ some '\uFEFF') : dropMark cs = cs := by
  unfold dropMark
  split
  · exact absurd rfl h
  · rfl

theorem skipSpaces_cons {c : Char} (h : isSpace c = false) (cs : List Char) :
    skipSpaces (c :: cs) = c :: cs := by
  simp [skipSpaces, h]

/-! ### Lines -/

namespace Dialect

variable {d : Dialect}

/-- The text `block` is read as one line, whatever follows. -/
structure Writes (d : Dialect) (line : Line) (block : List Char) : Prop where
  ne_nil : block ≠ []
  starts : ∀ c ∈ block.head?, isSpace c = false
  reads : ∀ more, d.line? (block ++ more) = some (line, more)

/-- **A document is read line by line.** -/
theorem lines?_flatten {lines : List Line} {blocks : List (List Char)}
    (h : List.Forall₂ d.Writes lines blocks) {fuel : Nat} (hfuel : blocks.length < fuel) :
    d.lines? fuel blocks.flatten = some lines := by
  induction h generalizing fuel with
  | nil =>
      obtain ⟨fuel, rfl⟩ := Nat.exists_eq_add_one.mpr hfuel
      rfl
  | @cons line block lines blocks hline _ ih =>
      obtain ⟨fuel, rfl⟩ : ∃ n, fuel = n + 1 := ⟨fuel - 1, by omega⟩
      obtain ⟨c, cs, rfl⟩ := List.exists_cons_of_ne_nil hline.ne_nil
      have hread := hline.reads blocks.flatten
      rw [List.cons_append] at hread
      simp only [List.flatten_cons, List.cons_append, lines?, skipSpaces_cons (hline.starts c rfl), hread,
        Option.bind_eq_bind, Option.bind_some, ih (Nat.lt_of_succ_lt_succ hfuel), Option.pure_def]

/-- There are no more blocks than characters. -/
theorem length_le_length_flatten {lines : List Line} {blocks : List (List Char)}
    (h : List.Forall₂ d.Writes lines blocks) : blocks.length ≤ blocks.flatten.length := by
  induction h with
  | nil => exact Nat.le_refl _
  | cons hline _ ih =>
      have hpos := List.length_pos_iff.mpr hline.ne_nil
      simp only [List.flatten_cons, List.length_append, List.length_cons]
      omega

end Dialect

/-- **The sections of a document are those that its lines make up.** -/
theorem sections?_flatten {d : Dialect} {lines : List Dialect.Line} {blocks : List (List Char)}
    (h : List.Forall₂ d.Writes lines blocks) (hreturn : '\r' ∉ blocks.flatten)
    (hmark : blocks.flatten.head? ≠ some '\uFEFF') :
    sections? d blocks.flatten =
      some (⟨[], false, (groupLines lines).1⟩ :: (groupLines lines).2) := by
  have hfuel : blocks.length < blocks.flatten.length + 1 :=
    Nat.lt_succ_of_le (Dialect.length_le_length_flatten h)
  simp only [sections?, dropMark_of_head hmark, joinLineEnds_of_no_return hreturn,
    Dialect.lines?_flatten h hfuel, Option.bind_eq_bind, Option.bind_some, Option.pure_def]

/-- Lines that set fields belong to the section before them. -/
theorem groupLines_fields (fields : List Field) (lines : List Dialect.Line) :
    groupLines (fields.map .field ++ lines) =
      (fields ++ (groupLines lines).1, (groupLines lines).2) := by
  induction fields with
  | nil => rfl
  | cons f fields ih => rw [List.map_cons, List.cons_append, groupLines, ih]; rfl

/-! ### Keys -/

/-- A key without quotes ends in front of any other character. -/
theorem key?_of_bare {cs : List Char} (hne : cs ≠ []) (hb : ∀ c ∈ cs, isBare c = true) {c : Char}
    (hc : isBare c = false) (more : List Char) :
    key? (cs ++ c :: more) = some (String.ofList cs, c :: more) := by
  have hend : ∀ d ∈ (c :: more).head?, isBare d = false := fun d hd => Option.some.inj hd ▸ hc
  rw [key?, Text.takeWhile_append_end hb hend, Text.dropWhile_append_end hb hend]
  split
  · exact absurd rfl hne
  · rfl

/-- A text that is read as a key in front of a blank, and does not look like anything else. -/
structure IsKeyText (key : String) (text : List Char) : Prop where
  starts : ∃ c cs, text = c :: cs ∧ isSpace c = false ∧ c ≠ '[' ∧ c ≠ '#' ∧ c ≠ '\n'
  reads : ∀ more, key? (text ++ ' ' :: more) = some (key, ' ' :: more)

theorem isKeyText_quoted {key : String} {raw : List Char} (h : Spells '"' key.toList raw) :
    IsKeyText key ('"' :: (raw ++ ['"'])) where
  starts := ⟨'"', _, rfl, rfl, by decide, by decide, by decide⟩
  reads more := by
    have hread := readShort?_of_spells (.inl rfl) h (' ' :: more)
    have hbare : ('"' :: (raw ++ '"' :: ' ' :: more)).takeWhile isBare = [] := rfl
    simp only [List.cons_append, List.append_assoc, List.nil_append, key?, hbare, hread,
      Option.map_some, String.ofList_toList]

/-- A name of bare characters. -/
def IsBareName (name : String) : Prop :=
  name.toList ≠ [] ∧ ∀ c ∈ name.toList, isBare c = true

instance (name : String) : Decidable (IsBareName name) :=
  decidable_of_iff (name.toList ≠ [] ∧ name.toList.all isBare = true)
    (and_congr_right fun _ => List.all_eq_true)

theorem isSpace_of_isBare {c : Char} (h : isBare c = true) :
    isSpace c = false ∧ c ≠ '[' ∧ c ≠ '#' ∧ c ≠ '\n' := by
  refine ⟨?_, ?_, ?_, ?_⟩
  · cases hs : isSpace c with
    | false => rfl
    | true =>
        simp only [isSpace, Bool.or_eq_true, beq_iff_eq] at hs
        rcases hs with rfl | rfl
        · cases h
        · cases h
  · rintro rfl; cases h
  · rintro rfl; cases h
  · rintro rfl; cases h

theorem isKeyText_bare {name : String} (h : IsBareName name) : IsKeyText name name.toList where
  starts := by
    obtain ⟨c, cs, hcs⟩ := List.exists_cons_of_ne_nil h.1
    exact ⟨c, cs, hcs, isSpace_of_isBare (h.2 c (hcs ▸ List.mem_cons_self))⟩
  reads more := by
    rw [key?_of_bare h.1 h.2 rfl, String.ofList_toList]

/-- A path of one key. -/
theorem path?_single {key : String} {cs rest : List Char} (hs : skipSpaces cs = cs)
    (hkey : key? cs = some (key, rest)) (hdot : (skipSpaces rest).head? ≠ some '.') {fuel : Nat}
    (hfuel : fuel ≠ 0) : path? fuel cs = some ([key], skipSpaces rest) := by
  obtain ⟨fuel, rfl⟩ := Nat.exists_eq_succ_of_ne_zero hfuel
  simp only [path?, hs, hkey, Option.bind_eq_bind, Option.bind_some]
  split
  · next heq => rw [heq] at hdot; exact absurd rfl hdot
  · rfl

/-! ### Fields, headers and empty lines -/

/-- The field that a line with one key sets. -/
def single (f : String × Value) : Field :=
  ([f.1], f.2)

namespace Dialect

variable {d : Dialect}

theorem leaf?_of_ne_mark (d : Dialect) {c : Char} (hq : c ≠ '"') (ha : c ≠ '\'') (cs : List Char) :
    d.leaf? (c :: cs) = d.scalar? (c :: cs) := by
  unfold leaf?
  split
  · next h => exact absurd (List.cons.inj h).1 hq
  · next h => exact absurd (List.cons.inj h).1 ha
  · rfl

theorem leaf?_of_mark (d : Dialect) {c : Char} (hc : c = '"' ∨ c = '\'') (cs : List Char) :
    d.leaf? (c :: cs) = (readText? (c :: cs)).map fun (s, rest) => (.text (String.ofList s), rest) := by
  rcases hc with rfl | rfl
  · rfl
  · rfl

/-- A text that is read as a value up to the end of its line. -/
structure IsValueText (d : Dialect) (v : Value) (text : List Char) : Prop where
  starts : ∃ c cs, text = c :: cs ∧ isSpace c = false ∧ c ≠ '[' ∧ c ≠ '\x7b'
  reads : ∀ more, d.leaf? (text ++ '\n' :: more) = some (v, '\n' :: more)

/-- The text of a field. -/
def fieldText (key value : List Char) : List Char :=
  key ++ ' ' :: '=' :: ' ' :: value ++ ['\n']

theorem value?_of_isValueText {v : Value} {text : List Char} (h : d.IsValueText v text) (depth : Nat)
    (more : List Char) :
    d.value? depth (skipSpaces (text ++ '\n' :: more)) = some (v, '\n' :: more) := by
  obtain ⟨c, cs, rfl, hs, hopen, hbrace⟩ := h.starts
  have hread := h.reads more
  rw [List.cons_append] at hread ⊢
  rw [skipSpaces_cons hs]
  cases depth with
  | zero => exact hread
  | succ depth =>
      unfold value?
      split
      · next heq => cases heq; exact absurd rfl hopen
      · next heq => cases heq; exact absurd rfl hbrace
      · exact hread

/-- A dialect that allows any path and any value at all has room for one key and for one level. -/
theorem limitFor_ne_zero (hd : d.limit ≠ some 0) {length : Nat} (hl : length ≠ 0) :
    d.limitFor length ≠ 0 := by
  rw [limitFor]
  cases h : d.limit with
  | none => exact hl
  | some n => exact fun hn => hd (h.trans (congrArg some hn))

/-- A line that starts like no header, comment or line end is a field. -/
theorem line?_field {c : Char} (hopen : c ≠ '[') (hhash : c ≠ '#') (hnl : c ≠ '\n') {cs rest : List Char}
    {f : Field} (hf : d.field? (d.value? (d.limitFor (cs.length + 1))) (c :: cs) = some (f, rest)) :
    d.line? (c :: cs) = (endLine? d.inComment rest).map fun rest => (.field f, rest) := by
  unfold line?
  split
  · next h => exact absurd (List.cons.inj h).1 hopen
  · next h => exact absurd (List.cons.inj h).1 hopen
  · next h => exact absurd (List.cons.inj h).1 hhash
  · next h => exact absurd (List.cons.inj h).1 hnl
  · next h => exact absurd h (List.cons_ne_nil c cs)
  · simp only [List.length_cons, hf, Option.bind_eq_bind, Option.bind_some, Option.pure_def,
      Option.map_eq_bind, Function.comp_def]

/-- A line with one bracket at its start is the header of a table. -/
theorem line?_table {c : Char} (hopen : c ≠ '[') {cs rest : List Char} {path : List String}
    (hp : path? (d.limitFor (cs.length + 2)) (c :: cs) = some (path, ']' :: rest)) :
    d.line? ('[' :: c :: cs) =
      (endLine? d.inHeaderComment rest).map fun rest => (.table path, rest) := by
  unfold line?
  split
  · next h => exact absurd (List.cons.inj (List.cons.inj h).2).1 hopen
  · next h =>
    cases h
    simp only [List.length_cons, hp, Option.bind_eq_bind, Option.bind_some, Option.pure_def,
      Option.map_eq_bind, Function.comp_def]
  · next h => cases h
  · next h => cases h
  · next h => cases h
  · next h _ _ _ => exact absurd rfl (h _)

theorem writes_field (hd : d.limit ≠ some 0) {key : String} {v : Value} {k w : List Char}
    (hk : IsKeyText key k) (hv : d.IsValueText v w) :
    d.Writes (.field (single (key, v))) (fieldText k w) := by
  obtain ⟨c, cs, hcs, hs, hopen, hhash, hnl⟩ := hk.starts
  have htext : ∀ more, fieldText k w ++ more = k ++ ' ' :: '=' :: ' ' :: (w ++ '\n' :: more) := by
    intro more; simp [fieldText]
  refine ⟨by rw [fieldText, hcs]; exact List.cons_ne_nil _ _, ?_, fun more => ?_⟩
  · rw [fieldText, hcs]
    rintro _ ⟨⟩
    exact hs
  · have hkey := hk.reads ('=' :: ' ' :: (w ++ '\n' :: more))
    have hskip : skipSpaces (' ' :: '=' :: ' ' :: (w ++ '\n' :: more)) =
        '=' :: ' ' :: (w ++ '\n' :: more) := rfl
    have hspace : skipSpaces (' ' :: (w ++ '\n' :: more)) = skipSpaces (w ++ '\n' :: more) := rfl
    rw [htext]
    generalize htail : ' ' :: '=' :: ' ' :: (w ++ '\n' :: more) = tail at hkey hskip
    rw [hcs, List.cons_append] at hkey ⊢
    have hpath := path?_single (skipSpaces_cons hs _) hkey (by rw [hskip]; exact nofun)
      (limitFor_ne_zero hd (Nat.succ_ne_zero (cs ++ tail).length))
    have hfield : d.field? (d.value? (d.limitFor ((cs ++ tail).length + 1))) (c :: (cs ++ tail)) =
        some (single (key, v), '\n' :: more) := by
      simp only [field?, List.length_cons, hpath, hskip, Option.bind_eq_bind, Option.bind_some, hspace,
        value?_of_isValueText hv, Option.pure_def, single]
    rw [line?_field hopen hhash hnl hfield]
    rfl

/-- The header of a section. -/
def headerText (name : List Char) : List Char :=
  '[' :: name ++ [']', '\n']

theorem writes_table (hd : d.limit ≠ some 0) {name : String} (hn : IsBareName name) :
    d.Writes (.table [name]) (headerText name.toList) := by
  obtain ⟨c, cs, hcs⟩ := List.exists_cons_of_ne_nil hn.1
  obtain ⟨hs, hopen, -, -⟩ := isSpace_of_isBare (hn.2 c (hcs ▸ List.mem_cons_self))
  refine ⟨List.cons_ne_nil _ _, fun _ hc => by cases hc; rfl, fun more => ?_⟩
  have htext : headerText name.toList ++ more = '[' :: (name.toList ++ ']' :: '\n' :: more) := by
    simp [headerText]
  have hkey := key?_of_bare hn.1 hn.2 (c := ']') rfl ('\n' :: more)
  have hskip : skipSpaces (']' :: '\n' :: more) = ']' :: '\n' :: more := rfl
  rw [String.ofList_toList] at hkey
  rw [htext]
  generalize htail : ']' :: '\n' :: more = tail at hkey hskip
  rw [hcs, List.cons_append] at hkey ⊢
  have hpath := path?_single (skipSpaces_cons hs _) hkey (by rw [hskip, ← htail]; exact nofun)
    (limitFor_ne_zero hd (Nat.succ_ne_zero (c :: (cs ++ tail)).length))
  rw [hskip, ← htail] at hpath
  rw [← htail, line?_table hopen hpath]
  rfl

/-- An empty line. -/
theorem writes_blank : d.Writes .blank ['\n'] :=
  ⟨List.cons_ne_nil _ _, fun _ hc => by cases hc; rfl, fun _ => rfl⟩

end Dialect

end PrefixMatch.Toml
