import PrefixMatch.Proofs.Layer.Tidy

/-!
# Layer — tables of TOML as maps

No table of a TOML document has a key twice, at any depth (`Toml.isMap_of_read?`): within a section and
an inline table keys are written one by one, and the tables of sections stand under keys of their own.  So
no text makes a layer with a key twice (`Layer.isMap_of_ofText?`).
-/

namespace PrefixMatch.Toml

open LayerValue (Tidy ofToml ofTomlItems ofTomlFields ofTomlField)

theorem ofTomlItems_eq_map (items : List Value) : ofTomlItems items = items.map ofToml := by
  induction items with
  | nil => rfl
  | cons v vs ih => rw [ofTomlItems, ih, List.map_cons]

theorem ofTomlFields_eq_map (fields : List (String × Value)) :
    ofTomlFields fields = fields.map fun f => (f.1, ofToml f.2) := by
  induction fields with
  | nil => rfl
  | cons f fs ih => rw [ofTomlFields, ih, List.map_cons, ofTomlField]

/-- No table of the value has a key twice. -/
def IsTidy (v : Value) : Prop :=
  (ofToml v).Tidy

theorem isTidy_array {items : List Value} (h : ∀ v ∈ items, IsTidy v) : IsTidy (.array items) := by
  rw [IsTidy, ofToml, ofTomlItems_eq_map]
  exact .array (List.forall_mem_map.mpr h)

/-- A table is without a key twice just when its keys are distinct and its values are. -/
theorem isTidy_table {fields : List (String × Value)} :
    IsTidy (.table fields) ↔ Fields.IsMap IsTidy fields := by
  rw [IsTidy, ofToml, ofTomlFields_eq_map]
  exact ⟨fun h => Fields.isMap_map (P := Tidy) (g := ofToml).mp h.isMap_fields,
    fun h => LayerValue.tidy_table (Fields.isMap_map.mpr h)⟩

/-! ### Scalars -/

namespace Tolerant

open Number (decimalValue splitSign)

/-- An integer within its bounds has no keys at all. -/
theorem isTidy_of_bounded? {n : Int} {rest rest' : List Char} {v : Value}
    (h : bounded? n rest = some (v, rest')) : IsTidy v := by
  rw [bounded?] at h
  split at h
  · cases h
    exact .plain trivial
  · cases h

theorem isTidy_of_based? {base : Nat} {isDigit : Char → Bool} {word rest rest' : List Char} {v : Value}
    (h : based? base isDigit word rest = some (v, rest')) : IsTidy v := by
  simp only [based?, Option.bind_eq_bind, Option.bind_eq_some_iff] at h
  obtain ⟨_, -, _, -, h⟩ := h
  exact isTidy_of_bounded? h

theorem isTidy_of_decimal? {word rest rest' : List Char} {v : Value}
    (h : decimal? word rest = some (v, rest')) : IsTidy v := by
  simp only [decimal?, Option.bind_eq_bind, Option.bind_eq_some_iff] at h
  obtain ⟨_, -, h⟩ := h
  split at h
  · exact isTidy_of_bounded? h
  · cases h

/-- What ends the reader of a number with a fraction gives a finite number. -/
theorem isTidy_of_ending? {word digits places ending rest rest' : List Char} {v : Value}
    (h : ((exponent? ending rest).bind fun (exponent, rest) =>
      match Double.ofDecimal (splitSign word).1 (decimalValue (digits ++ places))
          (exponent - places.length) with
      | .finite negative m e => some (Value.float (.finite negative m e), rest)
      | _ => none) = some (v, rest')) : IsTidy v := by
  obtain ⟨_, -, h⟩ := Option.bind_eq_some_iff.mp h
  simp only at h
  split at h
  · cases h
    exact .plain trivial
  · cases h

/-- Whether or not there are places after the point, the number ends as one with a fraction does. -/
theorem isTidy_of_fraction? {word rest rest' : List Char} {places : Option (List Char)} {v : Value}
    (h : fraction? word places rest = some (v, rest')) : IsTidy v := by
  simp only [fraction?, Option.bind_eq_bind, Option.bind_eq_some_iff] at h
  obtain ⟨⟨digits, ending⟩, -, h⟩ := h
  -- there may be places after a point
  split at h
  · exact isTidy_of_ending? h
  · split at h
    · obtain ⟨_, -, h⟩ := Option.bind_eq_some_iff.mp h
      exact isTidy_of_ending? h
    · cases h

/-- A word of digits is read in some base, as a number with a fraction, or as one of the words for a number.
-/
theorem isTidy_of_number? {word rest rest' : List Char} {v : Value}
    (h : number? word rest = some (v, rest')) : IsTidy v := by
  unfold number? at h
  split at h
  · exact isTidy_of_based? h
  · exact isTidy_of_based? h
  · exact isTidy_of_based? h
  · split at h
    · exact isTidy_of_fraction? h
    · split at h
      · obtain ⟨_, -, h⟩ := Option.bind_eq_some_iff.mp h
        exact isTidy_of_fraction? h
      · split at h
        case h_5 => exact isTidy_of_decimal? h
        all_goals
          cases h
          exact .plain trivial

/-- A date or a time is kept as its text. -/
theorem isTidy_of_moment? {word rest rest' : List Char} {v : Value}
    (h : moment? word rest = some (v, rest')) : IsTidy v := by
  simp only [moment?, Option.bind_eq_bind, Option.bind_eq_some_iff, Option.pure_def, Option.some.injEq,
    Prod.mk.injEq] at h
  obtain ⟨_, -, _, -, rfl, -⟩ := h
  exact .plain trivial

theorem isTidy_of_momentOrNumber? {word rest rest' : List Char} {v : Value}
    (h : momentOrNumber? word rest = some (v, rest')) : IsTidy v := by
  unfold momentOrNumber? at h
  split at h
  · exact isTidy_of_moment? h
  · split at h
    · exact isTidy_of_moment? h
    · exact isTidy_of_number? h

/-- **No scalar has keys**, whatever its first characters make of it. -/
theorem isTidy_of_scalar? {cs rest : List Char} {v : Value} (h : scalar? cs = some (v, rest)) :
    IsTidy v := by
  unfold scalar? at h
  split at h
  · obtain ⟨_, -, h⟩ := Option.bind_eq_some_iff.mp h
    exact isTidy_of_number? h
  · obtain ⟨_, -, h⟩ := Option.bind_eq_some_iff.mp h
    simp only at h
    split at h
    · cases h
      exact .plain trivial
    · cases h
      exact .plain trivial
    · exact isTidy_of_momentOrNumber? h
    · exact isTidy_of_momentOrNumber? h
    · split at h
      · exact isTidy_of_momentOrNumber? h
      · cases h

end Tolerant

/-! ### The table of fields -/

/-- Writing a value at the end of a path puts keys only where there are none: a table on the way stays, and a
missing one starts empty. -/
theorem isMap_putPath {path : List String} {v : Value} (hv : IsTidy v) {fields : List (String × Value)}
    (h : Fields.IsMap IsTidy fields) : Fields.IsMap IsTidy (putPath path v fields) := by
  induction path generalizing fields with
  | nil => exact h
  | cons key keys ih =>
      cases keys with
      | nil => exact h.put key hv
      | cons next keys =>
          refine h.put key (isTidy_table.mpr (ih ?_))
          split
          · next below hbelow =>
            exact isTidy_table.mp (h.of_get? hbelow)
          · exact Fields.isMap_nil

/-- So fields that are written in turn give a map. -/
theorem isMap_foldl_putPath {fields : List Field} (h : ∀ f ∈ fields, IsTidy f.2)
    {table : List (String × Value)} (ht : Fields.IsMap IsTidy table) :
    Fields.IsMap IsTidy (fields.foldl (fun table (path, v) => putPath path v table) table) := by
  induction fields generalizing table with
  | nil => exact ht
  | cons f fields ih =>
      exact ih (fun g hg => h g (List.mem_cons_of_mem f hg)) (isMap_putPath (h f List.mem_cons_self) ht)

/-- **The table of some fields is a map.** -/
theorem isMap_of_table? {fields : List Field} (h : ∀ f ∈ fields, IsTidy f.2)
    {table : List (String × Value)} (ht : Value.table? fields = some table) :
    Fields.IsMap IsTidy table := by
  rw [Value.table?] at ht
  split at ht
  · cases ht
    exact isMap_foldl_putPath h Fields.isMap_nil
  · cases ht

/-! ### Values -/

namespace Dialect

variable {d : Dialect} {value? : List Char → Option (Value × List Char)}

/-- What holds of every value that is read holds of the items of an array. -/
theorem isTidy_of_items? (hvalue : ∀ {cs v rest}, value? cs = some (v, rest) → IsTidy v) {fuel : Nat}
    {cs rest : List Char} {vs : List Value} (h : d.items? value? fuel cs = some (vs, rest)) :
    ∀ v ∈ vs, IsTidy v := by
  induction fuel generalizing cs vs rest with
  | zero => cases h
  | succ fuel ih =>
      simp only [items?, Option.bind_eq_bind, Option.bind_eq_some_iff] at h
      obtain ⟨_, -, h⟩ := h
      split at h
      · cases h
        exact fun v hv => absurd hv List.not_mem_nil
      · obtain ⟨⟨v, rest₁⟩, hv, h⟩ := Option.bind_eq_some_iff.mp h
        obtain ⟨_, -, h⟩ := Option.bind_eq_some_iff.mp h
        split at h
        · obtain ⟨⟨vs', rest₂⟩, hvs, heq⟩ := Option.bind_eq_some_iff.mp h
          cases heq
          exact List.forall_mem_cons.mpr ⟨hvalue hv, ih hvs⟩
        · cases h
          exact List.forall_mem_singleton.mpr (hvalue hv)
        · cases h

/-- The value of a field is read like any other. -/
theorem isTidy_of_field? (hvalue : ∀ {cs v rest}, value? cs = some (v, rest) → IsTidy v)
    {cs rest : List Char} {f : Field} (h : d.field? value? cs = some (f, rest)) : IsTidy f.2 := by
  simp only [field?, Option.bind_eq_bind, Option.bind_eq_some_iff] at h
  obtain ⟨_, -, h⟩ := h
  split at h
  · obtain ⟨⟨v, rest₁⟩, hv, heq⟩ := Option.bind_eq_some_iff.mp h
    cases heq
    exact hvalue hv
  · cases h

/-- And so are those of the fields of an inline table. -/
theorem isTidy_of_fields? (hvalue : ∀ {cs v rest}, value? cs = some (v, rest) → IsTidy v) {fuel : Nat}
    {cs rest : List Char} {fs : List Field} (h : d.fields? value? fuel cs = some (fs, rest)) :
    ∀ f ∈ fs, IsTidy f.2 := by
  induction fuel generalizing cs fs rest with
  | zero => cases h
  | succ fuel ih =>
      simp only [fields?, Option.bind_eq_bind, Option.bind_eq_some_iff] at h
      obtain ⟨⟨f, rest₁⟩, hf, h⟩ := h
      have hfirst : IsTidy f.2 := isTidy_of_field? hvalue hf
      split at h
      · obtain ⟨⟨fs', rest₂⟩, hfs, heq⟩ := Option.bind_eq_some_iff.mp h
        cases heq
        exact List.forall_mem_cons.mpr ⟨hfirst, ih hfs⟩
      · cases h
        exact List.forall_mem_singleton.mpr hfirst
      · cases h

/-- An inline table is written field by field. -/
theorem isTidy_of_inline? (hvalue : ∀ {cs v rest}, value? cs = some (v, rest) → IsTidy v)
    {cs rest : List Char} {v : Value} (h : d.inline? value? cs = some (v, rest)) : IsTidy v := by
  unfold inline? at h
  split at h
  · cases h
    exact isTidy_table.mpr Fields.isMap_nil
  · simp only [Option.bind_eq_bind, Option.bind_eq_some_iff, Option.pure_def, Option.some.injEq,
      Prod.mk.injEq] at h
    obtain ⟨⟨fs, rest₁⟩, hfs, table, htable, rfl, -⟩ := h
    exact isTidy_table.mpr (isMap_of_table? (isTidy_of_fields? hvalue hfs) htable)

variable (hscalar : ∀ {cs v rest}, d.scalar? cs = some (v, rest) → IsTidy v)
include hscalar

theorem isTidy_of_leaf? {cs rest : List Char} {v : Value} (h : d.leaf? cs = some (v, rest)) :
    IsTidy v := by
  unfold leaf? at h
  split at h
  case h_3 => exact hscalar h
  all_goals
    obtain ⟨_, -, heq⟩ := Option.map_eq_some_iff.mp h
    cases heq
    exact .plain trivial

/-- **A value is without a key twice** when scalars are, by induction on how deep it may be nested. -/
theorem isTidy_of_value? {depth : Nat} {cs rest : List Char} {v : Value}
    (h : d.value? depth cs = some (v, rest)) : IsTidy v := by
  induction depth generalizing cs v rest with
  | zero => exact isTidy_of_leaf? hscalar h
  | succ depth ih =>
      rw [value?.eq_def] at h
      simp only at h
      split at h
      · obtain ⟨⟨vs, rest₁⟩, hvs, heq⟩ := Option.map_eq_some_iff.mp h
        cases heq
        exact isTidy_array (isTidy_of_items? ih hvs)
      · exact isTidy_of_inline? ih h
      · exact isTidy_of_leaf? hscalar h

/-! ### Lines -/

/-- Of all kinds of lines only a field has a value. -/
theorem isTidy_of_line? {cs rest : List Char} {f : Field} (h : d.line? cs = some (.field f, rest)) :
    IsTidy f.2 := by
  unfold line? at h
  simp only [Option.bind_eq_bind] at h
  split at h
  case h_6 =>
    -- no other line sets a field
    obtain ⟨⟨g, rest₁⟩, hg, h⟩ := Option.bind_eq_some_iff.mp h
    obtain ⟨_, -, heq⟩ := Option.bind_eq_some_iff.mp h
    cases heq
    exact isTidy_of_field? (isTidy_of_value? hscalar) hg
  case h_3 | h_4 | h_5 =>
    obtain ⟨_, -, heq⟩ := Option.bind_eq_some_iff.mp h
    cases heq
  all_goals
    obtain ⟨_, -, h⟩ := Option.bind_eq_some_iff.mp h
    split at h
    · obtain ⟨_, -, heq⟩ := Option.bind_eq_some_iff.mp h
      cases heq
    · cases h

/-- The fields of a text are those of its lines. -/
theorem isTidy_of_lines? {fuel : Nat} {cs : List Char} {lines : List Line}
    (h : d.lines? fuel cs = some lines) {f : Field} (hf : .field f ∈ lines) : IsTidy f.2 := by
  induction fuel generalizing cs lines with
  | zero => cases h
  | succ fuel ih =>
      rw [lines?] at h
      split at h
      · cases h
        exact absurd hf List.not_mem_nil
      · simp only [Option.bind_eq_bind, Option.bind_eq_some_iff, Option.pure_def, Option.some.injEq] at h
        obtain ⟨⟨line, rest⟩, hline, lines', hlines, rfl⟩ := h
        rcases List.mem_cons.mp hf with rfl | hf
        · exact isTidy_of_line? hscalar hline
        · exact ih hlines hf

end Dialect

/-! ### Sections -/

/-- Every field of a section is the field of a line. -/
theorem line_of_groupLines {lines : List Dialect.Line} {f : Field} :
    (f ∈ (groupLines lines).1 → .field f ∈ lines) ∧
      ∀ s ∈ (groupLines lines).2, f ∈ s.fields → .field f ∈ lines := by
  induction lines with
  | nil => exact ⟨fun h => absurd h List.not_mem_nil, fun s h => absurd h List.not_mem_nil⟩
  | cons line lines ih =>
      obtain ⟨hfields, hsections⟩ := ih
      have hmem : .field f ∈ lines → Dialect.Line.field f ∈ line :: lines := List.mem_cons_of_mem line
      cases line with
      | blank => exact ⟨fun h => hmem (hfields h), fun s hs h => hmem (hsections s hs h)⟩
      | field g =>
          refine ⟨fun h => ?_, fun s hs h => hmem (hsections s hs h)⟩
          rcases List.mem_cons.mp h with rfl | h
          · exact List.mem_cons_self
          · exact hmem (hfields h)
      | table path | element path =>
          refine ⟨fun h => absurd h List.not_mem_nil, fun s hs h => ?_⟩
          rcases List.mem_cons.mp hs with rfl | hs
          · exact hmem (hfields h)
          · exact hmem (hsections s hs h)

/-- All values of a section are without a key twice. -/
def Section.IsTidy (s : Section) : Prop :=
  ∀ f ∈ s.fields, Toml.IsTidy f.2

/-- The sections of a text are made of its lines. -/
theorem isTidy_of_sections? {d : Dialect}
    (hscalar : ∀ {cs v rest}, d.scalar? cs = some (v, rest) → IsTidy v) {cs : List Char}
    {sections : List Section} (h : sections? d cs = some sections) : ∀ s ∈ sections, s.IsTidy := by
  simp only [sections?, Option.bind_eq_bind, Option.bind_eq_some_iff, Option.pure_def,
    Option.some.injEq] at h
  obtain ⟨lines, hlines, rfl⟩ := h
  refine List.forall_mem_cons.mpr ⟨fun f hf => ?_, fun s hs f hf => ?_⟩
  · exact Dialect.isTidy_of_lines? hscalar hlines (line_of_groupLines.1 hf)
  · exact Dialect.isTidy_of_lines? hscalar hlines (line_of_groupLines.2 s hs hf)

/-! ### The table of sections -/

/-- The first keys of paths are listed once each. -/
theorem nodup_eraseDups (names : List String) : names.eraseDups.Nodup := by
  match names with
  | [] => exact List.nodup_nil
  | name :: names =>
      rw [List.eraseDups_cons, List.nodup_cons]
      refine ⟨fun h => ?_, nodup_eraseDups _⟩
      simp [List.mem_eraseDups] at h
termination_by names.length
decreasing_by exact Nat.lt_succ_of_le (List.length_filter_le _ _)

/-- What a partial map gives on a list comes from one of its members. -/
theorem exists_of_mapM {α β : Type} {f : α → Option β} {as : List α} {bs : List β}
    (h : as.mapM f = some bs) : ∀ b ∈ bs, ∃ a ∈ as, f a = some b := by
  induction as generalizing bs with
  | nil =>
      cases h
      exact fun _ hb => absurd hb List.not_mem_nil
  | cons a as ih =>
      simp only [List.mapM_cons, Option.bind_eq_bind, Option.bind_eq_some_iff, Option.pure_def,
        Option.some.injEq] at h
      obtain ⟨b, hb, bs', hbs, rfl⟩ := h
      refine List.forall_mem_cons.mpr ⟨⟨a, List.mem_cons_self, hb⟩, fun c hc => ?_⟩
      obtain ⟨d, hd, hcd⟩ := ih hbs c hc
      exact ⟨d, List.mem_cons_of_mem a hd, hcd⟩

/-- Fields that keep the names they are made from have just these names as keys. -/
theorem keys_of_mapM {α : Type} {f : String → Option (String × α)} {names : List String}
    {fields : List (String × α)} (hf : ∀ name field, f name = some field → field.1 = name)
    (h : names.mapM f = some fields) : Fields.keys fields = names := by
  induction names generalizing fields with
  | nil =>
      cases h
      rfl
  | cons name names ih =>
      simp only [List.mapM_cons, Option.bind_eq_bind, Option.bind_eq_some_iff, Option.pure_def,
        Option.some.injEq] at h
      obtain ⟨field, hfield, fields', hfields, rfl⟩ := h
      have hrest : fields'.map Prod.fst = names := ih hfields
      rw [Fields.keys, List.map_cons, hf name field hfield, hrest]

/-- Sections that are cut into the elements of an array are the same sections. -/
theorem isTidy_cutElements {sections : List Section} (h : ∀ s ∈ sections, s.IsTidy) :
    (∀ s ∈ (cutElements sections).1, s.IsTidy) ∧
      ∀ group ∈ (cutElements sections).2, ∀ s ∈ group, s.IsTidy := by
  induction sections with
  | nil => exact ⟨fun _ hs => absurd hs List.not_mem_nil, fun _ hs => absurd hs List.not_mem_nil⟩
  | cons s sections ih =>
      obtain ⟨hs, hrest⟩ := List.forall_mem_cons.mp h
      obtain ⟨hbefore, hgroups⟩ := ih hrest
      cases ho : s.opensElement with
      | true =>
          simp only [cutElements, ho, if_true]
          exact ⟨fun _ hs => absurd hs List.not_mem_nil,
            List.forall_mem_cons.mpr ⟨List.forall_mem_cons.mpr ⟨hs, hbefore⟩, hgroups⟩⟩
      | false =>
          simp only [cutElements, ho, Bool.false_eq_true, if_false]
          exact ⟨List.forall_mem_cons.mpr ⟨hs, hbefore⟩, hgroups⟩

/-- Fields and tables are joined only when no key is in both. -/
theorem isMap_of_joined? {fields below table : List (String × Value)}
    (hfields : Fields.IsMap IsTidy fields) (hbelow : Fields.IsMap IsTidy below)
    (h : joined? fields below = some table) : Fields.IsMap IsTidy table := by
  rw [joined?] at h
  split at h
  · next hnew =>
    cases h
    refine hfields.append hbelow fun f hf => ?_
    rw [← Fields.get?_eq_none_iff]
    simpa [Fields.has] using List.all_eq_true.mp hnew f hf
  · cases h

/-- The fields that the section of a table itself gives. -/
def ownFields? (sections : List Section) : Option (List (String × Value)) :=
  match sections.filter fun s => s.path.isEmpty with
  | [] => some []
  | [s] => Value.table? s.fields
  | _ => none

/-- What the sections below a table give for a key. -/
def fieldBelow? (depth : Nat) (sections : List Section) (key : String) : Option (String × Value) :=
  let group := sections.filter fun s => s.path.head? = some key
  match group with
  | s :: _ =>
    if s.opensElement then do
      let tables ← (cutElements group).2.mapM fun element => table? depth (element.map Section.inner)
      return (key, Value.array (tables.map Value.table))
    else if group.any Section.opensElement then failure
    else do
      let table ← table? depth (group.map Section.inner)
      return (key, Value.table table)
  | [] => failure

/-- The table of some sections is made of the fields of its own section and of what is below each first key.
-/
theorem table?_succ (depth : Nat) (sections : List Section) :
    table? (depth + 1) sections = (ownFields? sections).bind fun fields =>
      ((firstKeys sections).mapM (fieldBelow? depth sections)).bind (joined? fields) := by
  simp only [table?, ownFields?, Option.bind_eq_bind]
  generalize sections.filter (fun s => s.path.isEmpty) = own
  rcases own with _ | ⟨s, _ | ⟨t, own⟩⟩ <;> rfl

/-- At most one section gives a table its own fields. -/
theorem isMap_of_ownFields? {sections : List Section} (h : ∀ s ∈ sections, s.IsTidy)
    {fields : List (String × Value)} (hf : ownFields? sections = some fields) :
    Fields.IsMap IsTidy fields := by
  rw [ownFields?] at hf
  split at hf
  · cases hf
    exact Fields.isMap_nil
  · next s hs =>
    have hmem : s ∈ sections := (List.mem_filter.mp (hs ▸ List.mem_singleton_self s)).1
    exact isMap_of_table? (h s hmem) hf
  · cases hf

/-- The field for a key has a value without a key twice if the tables below have none. -/
theorem isTidy_of_fieldBelow? {depth : Nat} {sections : List Section} (h : ∀ s ∈ sections, s.IsTidy)
    (hbelow : ∀ {group : List Section} {table}, (∀ s ∈ group, s.IsTidy) →
      table? depth (group.map Section.inner) = some table → IsTidy (.table table))
    {key : String} {f : String × Value} (hf : fieldBelow? depth sections key = some f) :
    f.1 = key ∧ IsTidy f.2 := by
  have hgroup : ∀ s ∈ sections.filter (fun s => s.path.head? = some key), s.IsTidy :=
    fun s hs => h s (List.mem_filter.mp hs).1
  simp only [fieldBelow?, Option.bind_eq_bind] at hf
  split at hf
  · split at hf
    · obtain ⟨tables, htables, heq⟩ := Option.bind_eq_some_iff.mp hf
      cases heq
      refine ⟨rfl, isTidy_array (List.forall_mem_map.mpr fun table htable => ?_)⟩
      obtain ⟨element, helement, ht⟩ := exists_of_mapM htables table htable
      exact hbelow ((isTidy_cutElements hgroup).2 element helement) ht
    · split at hf
      · cases hf
      · obtain ⟨table, ht, heq⟩ := Option.bind_eq_some_iff.mp hf
        cases heq
        exact ⟨rfl, hbelow hgroup ht⟩
  · cases hf

/-- **Sections give a table without a key twice**, by induction on how deep their paths go. -/
theorem isMap_of_tables {depth : Nat} {sections : List Section} (h : ∀ s ∈ sections, s.IsTidy)
    {table : List (String × Value)} (ht : table? depth sections = some table) :
    Fields.IsMap IsTidy table := by
  induction depth generalizing sections table with
  | zero => cases ht
  | succ depth ih =>
      have hkey : ∀ key f, fieldBelow? depth sections key = some f → f.1 = key ∧ IsTidy f.2 := by
        refine fun key f hf => isTidy_of_fieldBelow? h (fun {group _} hgroup ht => ?_) hf
        have htidy : ∀ s ∈ group.map Section.inner, s.IsTidy := List.forall_mem_map.mpr hgroup
        exact isTidy_table.mpr (ih htidy ht)
      -- the tables below stand under the first keys of paths, each of which comes once
      rw [table?_succ] at ht
      obtain ⟨fields, hfields, ht⟩ := Option.bind_eq_some_iff.mp ht
      obtain ⟨below, hbelow, ht⟩ := Option.bind_eq_some_iff.mp ht
      refine isMap_of_joined? (isMap_of_ownFields? h hfields) ⟨?_, fun f hf => ?_⟩ ht
      · rw [keys_of_mapM (fun key f hf => (hkey key f hf).1) hbelow]
        exact nodup_eraseDups _
      · obtain ⟨key, -, hf⟩ := exists_of_mapM hbelow f hf
        exact (hkey key f hf).2

/-- **A TOML document that is read has no key twice.** -/
theorem isMap_of_read? {cs : List Char} {table : List (String × Value)} (h : read? cs = some table) :
    Fields.IsMap IsTidy table := by
  simp only [read?, Option.bind_eq_bind, Option.bind_eq_some_iff] at h
  obtain ⟨sections, hsections, htable⟩ := h
  exact isMap_of_tables (isTidy_of_sections? Tolerant.isTidy_of_scalar? hsections) htable

end PrefixMatch.Toml

/-! ### Texts of all formats -/

namespace PrefixMatch.Layer

/-- **The layer of a text has no key twice.** -/
theorem isMap_of_ofText? {f : LayerFormat} {cs : List Char} {layer : Layer}
    (h : ofText? f cs = some layer) : Fields.IsMap LayerValue.Tidy layer := by
  cases f with
  | toml =>
      obtain ⟨table, htable, rfl⟩ := Option.map_eq_some_iff.mp h
      rw [Toml.ofTomlFields_eq_map]
      exact Fields.isMap_map.mpr (Toml.isMap_of_read? htable)
  | json =>
      obtain ⟨j, hj, rfl⟩ := Option.map_eq_some_iff.mp h
      exact (Json.tidy_of_read? hj).isMap_fields
  | yaml => exact isMap_of_ofYaml? h

end PrefixMatch.Layer
