import PrefixMatch.Text.Bytes

/-!
# Text — offsets and order of bytes

The UTF-8 form of a text, against its characters.

* `before?_byteLength`: cutting a text at the byte length of one of its starts gives that start.
* `cutsAt_of_start`: that length is an offset in the text, between two characters.
* `eq_of_prefix_of_byteLength_eq`: a start of a text that has as many bytes as the text is the text.
* `bytes_lt_iff`: comparing texts byte by byte is comparing them character by character.
* `bytes_toList`: those bytes are the UTF-8 encoding of the text.
* `compareBytes_eq_compareScalars`: the two comparisons of texts, by encodings and by scalar values, have the same
  outcome, which is the one that `bytesLE` goes by (`bytesLE_eq_isLE`).

The order of bytes follows the encoding digit by digit.  A form `f` of numbers is *ordered below* `n`
when smaller numbers have smaller forms, whatever comes after (`OrderedBelow`); putting a continuation
byte after the form of all but the last six bits keeps that (`OrderedBelow.continued`), so each of the
four widths is ordered because its first byte is.
-/

namespace PrefixMatch.Text

/-! ### Byte lengths -/

@[simp] theorem byteLength_nil : byteLength [] = 0 := rfl

@[simp] theorem byteLength_cons (c : Char) (cs : List Char) :
    byteLength (c :: cs) = c.utf8Size + byteLength cs := rfl

@[simp] theorem byteLength_append (a b : List Char) :
    byteLength (a ++ b) = byteLength a + byteLength b := by
  induction a with
  | nil => simp
  | cons c cs ih => simp only [List.cons_append, byteLength_cons, ih, Nat.add_assoc]

theorem byteLength_eq_zero_iff {cs : List Char} : byteLength cs = 0 ↔ cs = [] := by
  cases cs with
  | nil => simp
  | cons c cs =>
      have := c.utf8Size_pos
      simp only [byteLength_cons, reduceCtorEq, iff_false]
      omega

/-- **A cut at the byte length of a start gives that start.** -/
theorem before?_byteLength {a b : List Char} (h : a <+: b) : before? (byteLength a) b = some a := by
  induction a generalizing b with
  | nil => simp [before?]
  | cons c cs ih =>
      obtain ⟨r, rfl⟩ := h
      obtain ⟨k, hk⟩ := Nat.exists_eq_add_of_lt c.utf8Size_pos
      have hsize : byteLength (c :: cs) = k + byteLength cs + 1 := by
        rw [byteLength_cons]; omega
      have hrest : k + byteLength cs + 1 - c.utf8Size = byteLength cs := by omega
      rw [hsize, List.cons_append, before?, if_pos (by omega), hrest, ih (List.prefix_append _ _),
        Option.map_some]

/-- **A start with all the bytes of a text is the text.** -/
theorem eq_of_prefix_of_byteLength_eq {a b : List Char} (h : a <+: b)
    (hl : byteLength a = byteLength b) : a = b := by
  obtain ⟨r, rfl⟩ := h
  have hr : byteLength r = 0 := by rw [byteLength_append] at hl; omega
  rw [byteLength_eq_zero_iff.mp hr, List.append_nil]

/-- The byte length of the characters of a text is that of the text. -/
theorem byteLength_toList (s : String) : byteLength s.toList = s.utf8ByteSize := by
  have h : ∀ cs : List Char, byteLength cs = (String.ofList cs).utf8ByteSize := by
    intro cs
    induction cs with
    | nil => rfl
    | cons c cs ih =>
        rw [byteLength_cons, ih, String.ofList_cons, String.utf8ByteSize_append, String.utf8ByteSize_singleton]
  rw [h, String.ofList_toList]

/-- A byte offset at which a text can be cut, and the part before it: the offset lies in the text, between two of its
characters, and the cut gives that part. -/
structure CutsAt (text : String) (offset : Nat) (part : String) : Prop where
  le : offset ≤ text.utf8ByteSize
  boundary : String.Pos.Raw.IsValid text ⟨offset⟩
  before? : before? offset text.toList = some part.toList

/-- **The byte length of a start is a place to cut**, and the cut gives the start. -/
theorem cutsAt_of_start {text part : String} (h : part.toList <+: text.toList) :
    CutsAt text part.utf8ByteSize part := by
  have hcut := before?_byteLength h
  rw [byteLength_toList] at hcut
  obtain ⟨rest, hrest⟩ := h
  have htext : text = part ++ String.ofList rest := by
    rw [← String.toList_inj, String.toList_append, String.toList_ofList, hrest]
  refine ⟨?_, String.Pos.Raw.isValid_iff_exists_append.mpr ⟨part, String.ofList rest, htext, rfl⟩, hcut⟩
  rw [htext, String.utf8ByteSize_append]
  exact Nat.le_add_right _ _

/-! ### The order of encoded characters -/

/-- Below `n`, smaller numbers have smaller forms, whatever comes after. -/
def OrderedBelow (n : Nat) (f : Nat → List UInt8) : Prop :=
  ∀ v w, v < w → w < n → ∀ xs ys, f v ++ xs < f w ++ ys

/-- A first byte: the marks of its width over the leading bits. -/
def lead (n marks : Nat) (v : Nat) : List UInt8 := [UInt8.ofNat (v % n + marks)]

/-- A form of all but the last six bits, followed by a byte for these. -/
def continued (f : Nat → List UInt8) (v : Nat) : List UInt8 :=
  f (v / 64) ++ [UInt8.ofNat (v % 64 + 0x80)]

theorem ofNat_lt_ofNat {a b : Nat} (h : a < b) (hb : b < 256) : UInt8.ofNat a < UInt8.ofNat b := by
  rw [UInt8.lt_iff_toNat_lt, UInt8.toNat_ofNat_of_lt' (Nat.lt_trans h hb),
    UInt8.toNat_ofNat_of_lt' hb]
  exact h

theorem orderedBelow_lead {n marks : Nat} (h : n + marks ≤ 256) : OrderedBelow n (lead n marks) := by
  intro v w hvw hw xs ys
  rw [lead, lead, Nat.mod_eq_of_lt (Nat.lt_trans hvw hw), Nat.mod_eq_of_lt hw]
  exact .rel (ofNat_lt_ofNat (by omega) (by omega))

/-- A continuation byte keeps the order. -/
theorem OrderedBelow.continued {n : Nat} {f : Nat → List UInt8} (hf : OrderedBelow n f) :
    OrderedBelow (64 * n) (continued f) := by
  intro v w hvw hw xs ys
  simp only [Text.continued, List.append_assoc]
  by_cases h : v / 64 < w / 64
  · exact hf _ _ h (by omega) _ _
  · -- all but the last byte agree
    have h : v / 64 = w / 64 := by omega
    rw [h]
    exact List.append_left_lt (.rel (ofNat_lt_ofNat (by omega) (by omega)))

/-- The four widths of an encoded character. -/
theorem utf8EncodeChar_eq (c : Char) :
    String.utf8EncodeChar c =
      if c.val.toNat < 0x80 then lead 0x80 0 c.val.toNat
      else if c.val.toNat < 0x800 then continued (lead 0x20 0xc0) c.val.toNat
      else if c.val.toNat < 0x10000 then continued (continued (lead 0x10 0xe0)) c.val.toNat
      else continued (continued (continued (lead 0x8 0xf0))) c.val.toNat := by
  have h₁ : c.val.toNat ≤ 0x7f ↔ c.val.toNat < 0x80 := by omega
  have h₂ : c.val.toNat ≤ 0x7ff ↔ c.val.toNat < 0x800 := by omega
  have h₃ : c.val.toNat ≤ 0xffff ↔ c.val.toNat < 0x10000 := by omega
  simp only [String.utf8EncodeChar, h₁, h₂, h₃, continued, lead, Nat.div_div_eq_div_mul]
  split
  · next h => rw [Nat.mod_eq_of_lt h]; rfl
  · rfl

/-- **Smaller characters have smaller encodings**, whatever comes after. -/
theorem utf8EncodeChar_append_lt {c d : Char} (h : c < d) (xs ys : List UInt8) :
    String.utf8EncodeChar c ++ xs < String.utf8EncodeChar d ++ ys := by
  have hlt : c.val.toNat < d.val.toNat := h
  have hd : d.val.toNat < 0x200000 := by rcases d.valid with hd | ⟨-, hd⟩ <;> omega
  rw [utf8EncodeChar_eq, utf8EncodeChar_eq]
  generalize c.val.toNat = v at hlt
  generalize d.val.toNat = w at hlt hd
  -- two characters of one width are ordered by their digits, two of different widths by their
  -- first bytes
  have narrower : ∀ {a b : Nat} {l r : List UInt8}, a < b → b < 256 →
      UInt8.ofNat a :: l < UInt8.ofNat b :: r := fun h hb => .rel (ofNat_lt_ofNat h hb)
  by_cases h₁ : v < 0x80
  · rw [if_pos h₁]
    split
    · next hw => exact orderedBelow_lead (by decide) v w hlt hw xs ys
    · split
      · exact narrower (by omega) (by omega)
      · split
        · exact narrower (by omega) (by omega)
        · exact narrower (by omega) (by omega)
  · rw [if_neg h₁, if_neg (by omega : ¬w < 0x80)]
    by_cases h₂ : v < 0x800
    · rw [if_pos h₂]
      split
      · next hw => exact (orderedBelow_lead (by decide)).continued v w hlt hw xs ys
      · split
        · exact narrower (by omega) (by omega)
        · exact narrower (by omega) (by omega)
    · rw [if_neg h₂, if_neg (by omega : ¬w < 0x800)]
      by_cases h₃ : v < 0x10000
      · rw [if_pos h₃]
        split
        · next hw => exact (orderedBelow_lead (by decide)).continued.continued v w hlt hw xs ys
        · exact narrower (by omega) (by omega)
      · rw [if_neg h₃, if_neg (by omega : ¬w < 0x10000)]
        exact (orderedBelow_lead (by decide)).continued.continued.continued v w hlt hd xs ys

/-! ### The order of texts -/

@[simp] theorem bytes_nil : bytes [] = [] := rfl

@[simp] theorem bytes_cons (c : Char) (cs : List Char) :
    bytes (c :: cs) = String.utf8EncodeChar c ++ bytes cs := rfl

theorem bytes_lt_of_lt {a b : List Char} (h : a < b) : bytes a < bytes b := by
  induction h with
  | nil =>
      next c cs =>
      rw [bytes_nil, bytes_cons]
      cases he : String.utf8EncodeChar c with
      | nil => exact absurd he String.utf8EncodeChar_ne_nil
      | cons b bs => exact .nil
  | cons _ ih => exact List.append_left_lt ih
  | rel h => exact utf8EncodeChar_append_lt h _ _

/-- **Comparing texts by bytes is comparing them by characters.** -/
theorem bytes_lt_iff (a b : List Char) : bytes a < bytes b ↔ a < b := by
  refine ⟨fun h => Classical.byContradiction fun hn => ?_, bytes_lt_of_lt⟩
  rcases List.le_iff_lt_or_eq.mp (List.not_lt.mp hn) with hlt | rfl
  · exact List.lt_asymm h (bytes_lt_of_lt hlt)
  · exact List.lt_irrefl _ h

theorem bytesLE_iff (a b : String) : bytesLE a b = true ↔ a ≤ b := by
  rw [bytesLE, decide_eq_true_iff]
  exact not_congr (bytes_lt_iff b.toList a.toList)

/-- **A text comes before a longer one that it starts.** -/
theorem lt_of_start {a b : String} (h : a.toList <+: b.toList) (hne : a ≠ b) : a < b := by
  obtain ⟨rest, hrest⟩ := h
  cases rest with
  | nil => exact absurd (String.toList_inj.mp ((List.append_nil _).symm.trans hrest)) hne
  | cons c cs =>
      have hlt : a.toList ++ [] < a.toList ++ c :: cs := List.append_left_lt (List.nil_lt_cons c cs)
      rwa [List.append_nil, hrest] at hlt

/-! ### The outcome of a comparison -/

/-- The bytes of the characters of a text are its UTF-8 encoding. -/
theorem bytes_toList (s : String) : bytes s.toList = s.toByteArray.data.toList := by
  rw [← String.utf8Encode_toList, List.utf8Encode, List.toList_data_toByteArray, bytes]

/-- Compares the UTF-8 encodings of two texts byte by byte; where one only goes on behind the other, it comes later. -/
def compareBytes (a b : String) : Ordering :=
  compare a.toByteArray.data.toList b.toByteArray.data.toList

/-- Compares the Unicode scalar values of two texts one by one, in the same way. -/
def compareScalars (a b : String) : Ordering :=
  compare (a.toList.map Char.toNat) (b.toList.map Char.toNat)

instance : Std.OrientedCmp compareBytes where
  eq_swap := Std.OrientedOrd.eq_swap

instance : Std.OrientedCmp compareScalars where
  eq_swap := Std.OrientedOrd.eq_swap

theorem compare_eq_lt_iff {α : Type} [Ord α] [LT α] [LE α] [Std.LawfulOrderOrd α] [Std.LawfulOrderLT α]
    [Std.LawfulEqOrd α] (xs ys : List α) : compare xs ys = .lt ↔ xs < ys := by
  induction xs generalizing ys with
  | nil => cases ys <;> simp
  | cons x xs ih =>
      cases ys with
      | nil => simp
      | cons y ys =>
          rw [List.compare_cons_cons, Ordering.then_eq_lt, List.cons_lt_cons_iff, ih, Std.compare_eq_lt,
            Std.LawfulEqOrd.compare_eq_iff_eq]

theorem map_toNat_lt_iff (a b : List Char) : a.map Char.toNat < b.map Char.toNat ↔ a < b := by
  induction a generalizing b with
  | nil => cases b <;> simp
  | cons c cs ih =>
      cases b with
      | nil => simp
      | cons d ds =>
          rw [List.map_cons, List.map_cons, List.cons_lt_cons_iff, List.cons_lt_cons_iff, ih, Char.toNat_inj]
          rfl

theorem compareBytes_eq_lt_iff (a b : String) : compareBytes a b = .lt ↔ a < b := by
  rw [compareBytes, ← bytes_toList, ← bytes_toList, compare_eq_lt_iff, bytes_lt_iff]
  rfl

theorem compareScalars_eq_lt_iff (a b : String) : compareScalars a b = .lt ↔ a < b := by
  rw [compareScalars, compare_eq_lt_iff, map_toNat_lt_iff]
  rfl

/-- **Encodings compare as scalar values do.** -/
theorem compareBytes_eq_compareScalars (a b : String) : compareBytes a b = compareScalars a b := by
  cases h : compareScalars a b with
  | lt => rwa [compareBytes_eq_lt_iff, ← compareScalars_eq_lt_iff]
  | eq =>
      have h : a.toList.map Char.toNat = b.toList.map Char.toNat := Std.LawfulEqOrd.eq_of_compare h
      obtain rfl := String.toList_inj.mp ((List.map_inj_right fun _ _ => Char.toNat_inj.mp).mp h)
      exact Std.ReflOrd.compare_self
  | gt =>
      -- the smaller one of two texts is the same in both comparisons
      have h : compareScalars b a = .lt := Std.OrientedCmp.lt_of_gt h
      rw [compareScalars_eq_lt_iff, ← compareBytes_eq_lt_iff] at h
      exact Std.OrientedCmp.gt_of_lt h

/-- What comes no later by bytes is what does not compare as greater. -/
theorem bytesLE_eq_isLE (a b : String) : bytesLE a b = (compareBytes a b).isLE := by
  have hgt : compareBytes a b = .gt ↔ b < a :=
    Std.OrientedCmp.gt_iff_lt.trans (compareBytes_eq_lt_iff b a)
  rw [Bool.eq_iff_iff, bytesLE_iff, Ordering.isLE_iff_ne_gt, hgt]
  exact Iff.rfl

end PrefixMatch.Text
