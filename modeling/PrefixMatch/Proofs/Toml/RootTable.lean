import PrefixMatch.Proofs.Toml.Layout

/-!
# Toml — what names a key of the root

Whatever a line does below the root table, it reaches it through the first key of its path, and the root
table changes at this key alone (`Items.puts_setField?`, `Items.puts_addSection?`).  So the keys of the root
are the first keys of the fields before the first header and of all headers (`Toml.NamesRoot`), each once,
however deep the tables and the values behind them go (`rootKeys?_names`).
-/

namespace PrefixMatch.Toml

/-! ### Lines that name keys -/

/-- Whether a line opens a section. -/
def Dialect.Line.IsHeader : Dialect.Line → Prop
  | .table _ | .element _ => True
  | .field _ | .blank => False

/-- A key is named at the root by a field before the first header, whose path starts with it, and by a header
anywhere, whose path starts with it. -/
inductive NamesRoot (lines : List Dialect.Line) (key : String) : Prop
  | field {before after : List Dialect.Line} {keys : List String} {v : Value}
      (hlines : lines = before ++ .field (key :: keys, v) :: after)
      (hroot : ∀ line ∈ before, ¬ line.IsHeader)
  | table {keys : List String} (h : .table (key :: keys) ∈ lines)
  | element {keys : List String} (h : .element (key :: keys) ∈ lines)

/-- The fields in front of the first header belong to the root. -/
theorem mem_groupLines_fields {lines : List Dialect.Line} {f : Field} :
    f ∈ (groupLines lines).1 ↔
      ∃ before after, lines = before ++ .field f :: after ∧ ∀ line ∈ before, ¬ line.IsHeader := by
  induction lines with
  | nil => simp [groupLines]
  | cons line lines ih =>
      -- the line is the field itself, or the field comes after it
      have hcons : (∃ before after, line :: lines = before ++ .field f :: after ∧
          ∀ line ∈ before, ¬ line.IsHeader) ↔
          line = .field f ∨ ¬ line.IsHeader ∧ ∃ before after, lines = before ++ .field f :: after ∧
            ∀ line ∈ before, ¬ line.IsHeader := by
        constructor
        · rintro ⟨_ | ⟨l, before⟩, after, heq, hbefore⟩
          · exact .inl (List.cons.inj heq).1
          · obtain ⟨rfl, rfl⟩ := List.cons.inj heq
            obtain ⟨hl, hbefore⟩ := List.forall_mem_cons.mp hbefore
            exact .inr ⟨hl, before, after, rfl, hbefore⟩
        · rintro (rfl | ⟨hl, before, after, rfl, hbefore⟩)
          · exact ⟨[], lines, rfl, List.forall_mem_nil _⟩
          · exact ⟨line :: before, after, rfl, List.forall_mem_cons.mpr ⟨hl, hbefore⟩⟩
      rw [hcons, ← ih]
      cases line with
      | blank => simp [groupLines, Dialect.Line.IsHeader]
      | field g => simp [groupLines, Dialect.Line.IsHeader, eq_comm]
      | table p => simp [groupLines, Dialect.Line.IsHeader]
      | element p => simp [groupLines, Dialect.Line.IsHeader]

/-- Each header opens a section with its path. -/
theorem exists_mem_groupLines_sections {lines : List Dialect.Line} {path : List String} :
    (∃ s ∈ (groupLines lines).2, s.path = path) ↔ .table path ∈ lines ∨ .element path ∈ lines := by
  induction lines with
  | nil => simp [groupLines]
  | cons line lines ih =>
      cases line with
      | blank => simpa [groupLines] using ih
      | field f => simpa [groupLines] using ih
      | table p =>
          simp only [groupLines, List.mem_cons, or_and_right, exists_or, exists_eq_left, ih,
            Dialect.Line.table.injEq, reduceCtorEq, false_or, or_assoc, @eq_comm _ path p]
      | element p =>
          simp only [groupLines, List.mem_cons, or_and_right, exists_or, exists_eq_left, ih,
            Dialect.Line.element.injEq, reduceCtorEq, false_or, or_left_comm, @eq_comm _ path p]

/-- The root is named by its fields and by the sections. -/
theorem namesRoot_iff {lines : List Dialect.Line} {key : String} :
    NamesRoot lines key ↔
      (∃ f ∈ (groupLines lines).1, f.1.head? = some key) ∨
        ∃ s ∈ (groupLines lines).2, s.path.head? = some key := by
  constructor
  · rintro (⟨hlines, hroot⟩ | h | h)
    · exact .inl ⟨_, mem_groupLines_fields.mpr ⟨_, _, hlines, hroot⟩, rfl⟩
    · obtain ⟨s, hs, hpath⟩ := exists_mem_groupLines_sections.mpr (.inl h)
      exact .inr ⟨s, hs, by rw [hpath]; rfl⟩
    · obtain ⟨s, hs, hpath⟩ := exists_mem_groupLines_sections.mpr (.inr h)
      exact .inr ⟨s, hs, by rw [hpath]; rfl⟩
  · rintro (⟨⟨path, v⟩, hf, hkey⟩ | ⟨s, hs, hkey⟩)
    · obtain ⟨keys, rfl⟩ := List.head?_eq_some_iff.mp hkey
      obtain ⟨before, after, hlines, hroot⟩ := mem_groupLines_fields.mp hf
      exact .field hlines hroot
    · obtain ⟨keys, hpath⟩ := List.head?_eq_some_iff.mp hkey
      rcases exists_mem_groupLines_sections.mp ⟨s, hs, hpath⟩ with h | h
      · exact .table h
      · exact .element h

/-! ### One change -/

/-- Writes one key. -/
def Puts (key : String) (items items' : Items) : Prop :=
  ∃ item, items' = Fields.put key item items

namespace Items

theorem puts_add? {key : String} {items items' : Items} (h : Fields.add? key Item.value items = some items') :
    Puts key items items' := by
  rw [Fields.add?] at h
  split at h
  · cases h
  · next hnew =>
    cases h
    have hget : Fields.get? key items = none := by simpa [Fields.has] using hnew
    exact ⟨.value, (Fields.put_of_not_mem ((Fields.get?_eq_none_iff items).mp hget) .value).symm⟩

/-- A change below a key writes this key. -/
theorem puts_change? {made origin : Origin} {f : Origin → Items → Option Items} {key : String}
    {keys : List String} {items items' : Items} (h : change? made f (key :: keys) origin items = some items') :
    Puts key items items' := by
  simp only [change?] at h
  split at h
  · obtain ⟨below, -, heq⟩ := Option.bind_eq_some_iff.mp h
    exact ⟨.table made below, (Option.some.inj heq).symm⟩
  · cases h
  · obtain ⟨below, -, heq⟩ := Option.bind_eq_some_iff.mp h
    exact ⟨.tables below, (Option.some.inj heq).symm⟩
  · next o below _ =>
    split at h
    · cases h
    · obtain ⟨below, -, heq⟩ := Option.bind_eq_some_iff.mp h
      exact ⟨.table o below, (Option.some.inj heq).symm⟩

/-- A change to the last key of a path writes the first key of it. -/
theorem puts_change?_dropLast {made origin : Origin} {f : Origin → Items → Option Items} {last : String}
    {path : List String} {items items' : Items} (hlast : path.getLast? = some last)
    (hf : ∀ {o below below'}, f o below = some below' → Puts last below below')
    (h : change? made f path.dropLast origin items = some items') :
    ∃ key, path.head? = some key ∧ Puts key items items' := by
  match path, hlast with
  | [key], hlast =>
      cases hlast
      exact ⟨key, rfl, hf h⟩
  | key :: next :: keys, _ => exact ⟨key, rfl, puts_change? h⟩

/-- A field writes the first key of its path. -/
theorem puts_setField? {items items' : Items} {path : List String} (h : items.setField? path = some items') :
    ∃ key, path.head? = some key ∧ Puts key items items' := by
  obtain ⟨last, hlast, h⟩ := Option.bind_eq_some_iff.mp h
  refine puts_change?_dropLast hlast (fun hf => ?_) h
  split at hf
  · cases hf
  · exact puts_add? hf

/-- A section writes the first key of its header. -/
theorem puts_addSection? {root root' : Items} {s : Section} (h : root.addSection? s = some root') :
    ∃ key, s.path.head? = some key ∧ Puts key root root' := by
  obtain ⟨last, hlast, h⟩ := Option.bind_eq_some_iff.mp h
  refine puts_change?_dropLast hlast (fun hf => ?_) h
  split at hf
  case h_5 => cases hf
  all_goals
    obtain ⟨below, -, heq⟩ := Option.bind_eq_some_iff.mp hf
    exact ⟨_, (Option.some.inj heq).symm⟩

/-! ### Many changes -/

/-- **Changes in turn write the first keys of their paths**, and no others. -/
theorem keys_foldlM {α : Type} (step : Items → α → Option Items) (path : α → List String)
    (hstep : ∀ {items items' a}, step items a = some items' →
      ∃ key, (path a).head? = some key ∧ Puts key items items')
    {as : List α} {items items' : Items} (h : as.foldlM step items = some items') :
    ((Fields.keys items).Nodup → (Fields.keys items').Nodup) ∧
      ∀ key, key ∈ Fields.keys items' ↔
        key ∈ Fields.keys items ∨ ∃ a ∈ as, (path a).head? = some key := by
  induction as generalizing items with
  | nil =>
      cases h
      simp
  | cons a as ih =>
      rw [List.foldlM_cons] at h
      obtain ⟨next, hnext, h⟩ := Option.bind_eq_some_iff.mp h
      obtain ⟨first, hfirst, item, rfl⟩ := hstep hnext
      obtain ⟨hnodup, hmem⟩ := ih h
      refine ⟨fun hd => hnodup (Fields.nodup_keys_put hd first item), fun key => ?_⟩
      simp only [hmem, Fields.mem_keys_put, List.mem_cons, or_and_right, exists_or, exists_eq_left, hfirst,
        Option.some.injEq, @eq_comm _ first key, or_assoc, or_left_comm]

end Items

/-- The root table has the first keys of its own fields and of the headers of the sections. -/
theorem keys_rootTable? {root : Section} {sections : List Section} {items : Items}
    (h : rootTable? (root :: sections) = some items) :
    (Fields.keys items).Nodup ∧ ∀ key, key ∈ Fields.keys items ↔
      (∃ f ∈ root.fields, f.1.head? = some key) ∨ ∃ s ∈ sections, s.path.head? = some key := by
  obtain ⟨own, hown, hsections⟩ := Option.bind_eq_some_iff.mp h
  obtain ⟨hd, hmem⟩ := Items.keys_foldlM _ Prod.fst Items.puts_setField? hown
  obtain ⟨hd', hmem'⟩ := Items.keys_foldlM _ Section.path Items.puts_addSection? hsections
  refine ⟨hd' (hd List.nodup_nil), fun key => ?_⟩
  rw [hmem', hmem]
  simp [Fields.keys]

/-- **The keys of the root are the ones that its lines name**, each once. -/
theorem rootKeys?_names {cs : List Char} {keys : List String} (h : rootKeys? cs = some keys) :
    ∃ lines, Exact.Layout lines (joinLineEnds (dropMark cs)) ∧ keys.Nodup ∧
      ∀ key, key ∈ keys ↔ NamesRoot lines key := by
  obtain ⟨sections, hsections, h⟩ := Option.bind_eq_some_iff.mp h
  obtain ⟨lines, hlines, heq⟩ := Option.bind_eq_some_iff.mp hsections
  cases heq
  obtain ⟨items, hitems, heq⟩ := Option.bind_eq_some_iff.mp h
  cases heq
  obtain ⟨hd, hmem⟩ := keys_rootTable? hitems
  exact ⟨lines, Exact.layout_of_lines? hlines, hd, fun key => (hmem key).trans namesRoot_iff.symm⟩

end PrefixMatch.Toml
