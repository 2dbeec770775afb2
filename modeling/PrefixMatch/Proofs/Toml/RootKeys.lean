import PrefixMatch.Proofs.Fields
import PrefixMatch.Proofs.Toml.Document
import PrefixMatch.Proofs.Toml.Scalar
import PrefixMatch.Toml.RootKeys

/-!
# Toml — documents of quoted keys

`Toml.KeysDocument keys text` says that `text` is a document with one line for each of the given keys,
which stands between quotes in one of its written forms and in front of any scalar value.  The keys of the
root table of such a document are the given ones in order (`rootKeys?_of_keysDocument`).
-/

namespace PrefixMatch.Toml

/-! ### Scalars -/

namespace Exact

theorem afterWord?_of_head (word : String) {w c : Char} {ws : List Char} (hw : word.toList = w :: ws)
    (hc : c ≠ w) (cs : List Char) : afterWord? word (c :: cs) = none := by
  have hne : (w == c) = false := by simpa using Ne.symm hc
  rw [afterWord?, hw, List.isPrefixOf_cons_cons, hne]
  rfl

theorem fixedDigits?_of_head {c : Char} (hd : c.isDigit = false) (count : Nat) (cs : List Char) :
    fixedDigits? (count + 1) (c :: cs) = none := by
  simp [fixedDigits?, hd]

/-- What may start a scalar: a digit, a sign, or the letter of a word. -/
theorem scalar?_of_head {c : Char} (hd : c.isDigit = false)
    (hc : c ∉ ['+', '-', 't', 'f', 'i', 'n']) (cs : List Char) : scalar? (c :: cs) = none := by
  simp only [List.mem_cons, List.not_mem_nil, or_false, not_or] at hc
  obtain ⟨hplus, hminus, ht, hf, hi, hn⟩ := hc
  have hsign : Number.splitSign (c :: cs) = (false, c :: cs) := by
    unfold Number.splitSign
    split
    · next h => exact absurd (List.cons.inj h).1 hminus
    · next h => exact absurd (List.cons.inj h).1 hplus
    · rfl
  have hwhole : whole? (c :: cs) = none := by rw [whole?, digits?_of_not_digit hd]; rfl
  have hspecial : special? (c :: cs) = none := by
    simp only [special?, hsign, afterWord?_of_head "inf" rfl hi,
      afterWord?_of_head "nan" rfl hn, Option.map_none]
  have hdate : date? (c :: cs) = none := by rw [date?, fixedDigits?_of_head hd]; rfl
  have hclock : clock? (c :: cs) = none := by rw [clock?, time?, fixedDigits?_of_head hd]; rfl
  have hmoment : moment? (c :: cs) = none := by rw [moment?, hdate, hclock]; rfl
  have hfraction : fraction? (c :: cs) = none := by
    simp only [fraction?, hsign, hwhole, Option.bind_eq_bind, Option.bind_none]
  have hinteger : integer? (c :: cs) = none := by
    have hzero : c ≠ '0' := by rintro rfl; cases hd
    unfold integer?
    split
    · next h => exact absurd (List.cons.inj h).1 hzero
    · next h => exact absurd (List.cons.inj h).1 hzero
    · next h => exact absurd (List.cons.inj h).1 hzero
    · simp only [hsign, hwhole, Option.bind_eq_bind, Option.bind_none]
  simp only [scalar?, afterWord?_of_head "true" rfl ht,
    afterWord?_of_head "false" rfl hf, hspecial, hmoment, hfraction, hinteger]
  rfl

end Exact

/-- The text of a scalar value on one line: a string of any kind, a truth value, a number, or a date or
time. -/
def IsScalarText (v : List Char) : Prop :=
  '\n' ∉ v ∧ '\r' ∉ v ∧ ∃ x, Exact.dialect.leaf? v = some (x, [])

/-- Nothing else starts with a blank or with the opening of a value that holds others. -/
theorem leaf?_of_head {c : Char} (hc : c ∈ [' ', '\t', '[', '\x7b']) (cs : List Char) :
    Exact.dialect.leaf? (c :: cs) = none := by
  have hopens : c ≠ '"' ∧ c ≠ '\'' ∧ c.isDigit = false ∧ c ∉ ['+', '-', 't', 'f', 'i', 'n'] := by
    simp only [List.mem_cons, List.not_mem_nil, or_false] at hc
    rcases hc with rfl | rfl | rfl | rfl <;> decide
  obtain ⟨hq, ha, hd, hw⟩ := hopens
  rw [Dialect.leaf?_of_ne_mark _ hq ha]
  exact Exact.scalar?_of_head hd hw cs

/-- A scalar is read up to the end of its line. -/
theorem isValueText_of_isScalarText {v : List Char} (h : IsScalarText v) :
    ∃ x, Exact.dialect.IsValueText x v := by
  obtain ⟨hn, -, x, hx⟩ := h
  refine ⟨x, ?_, fun more => ?_⟩
  · cases v with
    | nil => cases hx
    | cons c cs =>
        have hnone : ∀ b ∈ [' ', '\t', '[', '\x7b'], c ≠ b := by
          rintro b hb rfl
          rw [leaf?_of_head hb] at hx
          cases hx
        refine ⟨c, cs, rfl, ?_, hnone '[' (by simp), hnone '\x7b' (by simp)⟩
        simp [isSpace, hnone ' ' (by simp), hnone '\t' (by simp)]
  · cases v with
    | nil => cases hx
    | cons c cs =>
        rw [List.cons_append]
        by_cases hmark : c = '"' ∨ c = '\''
        · rw [Dialect.leaf?_of_mark _ hmark] at hx ⊢
          obtain ⟨⟨s, rest⟩, hs, heq⟩ := Option.map_eq_some_iff.mp hx
          cases heq
          have hread := readText?_append_newline hs hn more
          rw [List.cons_append] at hread
          rw [hread]
          rfl
        · rw [not_or] at hmark
          rw [Dialect.leaf?_of_ne_mark _ hmark.1 hmark.2] at hx ⊢
          exact Exact.stopsAt_scalar?.whole hx more

/-! ### Documents -/

/-- One line: what stands between the quotes of its key, and its value. -/
def rowText (raw v : List Char) : List Char :=
  Dialect.fieldText ('"' :: (raw ++ ['"'])) v

/-- A text is a document with the given keys in the given order, each in front of a scalar. -/
def KeysDocument (keys : List String) (text : List Char) : Prop :=
  ∃ rows : List (List Char × List Char),
    List.Forall₂ (fun key row => Spells '"' key.toList row.1 ∧ IsScalarText row.2) keys rows ∧
      text = (rows.map fun (raw, v) => rowText raw v).flatten

/-- The rows of a document are lines that set the given keys. -/
theorem writes_rows {keys : List String} {rows : List (List Char × List Char)}
    (h : List.Forall₂ (fun key row => Spells '"' key.toList row.1 ∧ IsScalarText row.2) keys rows) :
    ∃ fields : List (String × Value), Fields.keys fields = keys ∧
      List.Forall₂ Exact.dialect.Writes ((fields.map single).map .field)
        (rows.map fun (raw, v) => rowText raw v) := by
  induction h with
  | nil => exact ⟨[], rfl, .nil⟩
  | @cons key row keys rows hrow _ ih =>
      obtain ⟨fields, hkeys, hwrites⟩ := ih
      obtain ⟨x, hx⟩ := isValueText_of_isScalarText hrow.2
      refine ⟨(key, x) :: fields, by rw [← hkeys]; rfl, .cons ?_ hwrites⟩
      exact Dialect.writes_field (by decide) (isKeyText_quoted hrow.1) hx

theorem not_mem_return_rows {keys : List String} {rows : List (List Char × List Char)}
    (h : List.Forall₂ (fun key row => Spells '"' key.toList row.1 ∧ IsScalarText row.2) keys rows) :
    '\r' ∉ (rows.map fun (raw, v) => rowText raw v).flatten := by
  induction h with
  | nil => exact List.not_mem_nil
  | @cons key row keys rows hrow _ ih =>
      have hraw : '\r' ∉ row.1 := fun hmem => absurd (isPlain_of_spells hrow.1 _ hmem) (by decide)
      simpa [rowText, Dialect.fieldText, hraw, hrow.2.2.1] using ih

namespace Items

/-- A field with one key is a value of the root. -/
theorem setField?_single {items : Items} {key : String} (h : key ∉ Fields.keys items) :
    setField? items [key] = some (items ++ [(key, .value)]) := by
  have hnew : Fields.has key items = false := by
    rw [Fields.has, (Fields.get?_eq_none_iff items).mpr h]
    rfl
  simp [setField?, change?, Fields.add?, hnew]

/-- Fields with distinct keys are set in order. -/
theorem setFields?_single {fields : List (String × Value)} (items : Items)
    (hd : (Fields.keys items ++ Fields.keys fields).Nodup) :
    setFields? items (fields.map single) = some (items ++ fields.map fun f => (f.1, .value)) := by
  induction fields generalizing items with
  | nil => simp [setFields?]
  | cons f fields ih =>
      have hnew : f.1 ∉ Fields.keys items := fun hmem =>
        (List.nodup_append.mp hd).2.2 f.1 hmem f.1 List.mem_cons_self rfl
      have hrest : (Fields.keys (items ++ [(f.1, Item.value)]) ++ Fields.keys fields).Nodup := by
        simpa [Fields.keys] using hd
      have hrec := ih (items ++ [(f.1, Item.value)]) hrest
      simp only [setFields?] at hrec
      simp only [setFields?, List.map_cons, single, List.foldlM_cons, setField?_single hnew,
        Option.bind_eq_bind, Option.bind_some, hrec, List.append_assoc, List.singleton_append]

end Items

/-- **The keys of a document of quoted keys are read in order.** -/
theorem rootKeys?_of_keysDocument {keys : List String} {text : List Char} (h : KeysDocument keys text)
    (hd : keys.Nodup) : rootKeys? text = some keys := by
  obtain ⟨rows, hrows, rfl⟩ := h
  obtain ⟨fields, rfl, hwrites⟩ := writes_rows hrows
  have hmark : (rows.map fun (raw, v) => rowText raw v).flatten.head? ≠ some '\uFEFF' := by
    cases rows with
    | nil => exact nofun
    | cons row rows => exact fun h => absurd (Option.some.inj h) (by decide)
  have hsections := sections?_flatten hwrites (not_mem_return_rows hrows) hmark
  have hgroup := groupLines_fields (fields.map single) []
  simp only [List.append_nil, groupLines] at hgroup
  rw [hgroup] at hsections
  have hitems : Items.setFields? [] (fields.map single) =
      some ([] ++ fields.map fun f => (f.1, .value)) := Items.setFields?_single [] hd
  have hkeys := Fields.keys_map (fun _ => Item.value) fields
  simp only [rootKeys?, hsections, Option.bind_eq_bind, Option.bind_some, rootTable?, hitems,
    List.foldlM_nil, List.nil_append, Option.pure_def, hkeys]

end PrefixMatch.Toml
