import PrefixMatch.Proofs.Fields
import PrefixMatch.Proofs.Toml.Document
import PrefixMatch.Toml.Tables

/-!
# Toml — documents of sections

A document that consists of sections with one name each, with empty lines between them, in which no
section and no field of a section comes twice, is read as the table of these sections
(`read?_of_sections`).
-/

namespace PrefixMatch.Toml

/-! ### The table of fields -/

theorem allApart_single {fields : List (String × Value)} (hd : (Fields.keys fields).Nodup) :
    allApart ((fields.map single).map Prod.fst) = true := by
  induction fields with
  | nil => rfl
  | cons f fields ih =>
      obtain ⟨hf, hrest⟩ := List.nodup_cons.mp hd
      rw [List.map_cons, List.map_cons, allApart, ih hrest, Bool.and_true, List.all_eq_true]
      intro path hpath
      simp only [List.map_map, List.mem_map, Function.comp_apply] at hpath
      obtain ⟨g, hg, rfl⟩ := hpath
      have hne : (f.1 == g.1) = false := beq_false_of_ne fun h => hf (h ▸ List.mem_map_of_mem hg)
      have hne' : (g.1 == f.1) = false := by rw [BEq.comm]; exact hne
      simp only [apart, single, List.isPrefixOf_cons_cons, hne, hne', Bool.false_and, Bool.not_false,
        Bool.and_self]

/-- Fields with distinct keys make up the table of these fields. -/
theorem table?_single {fields : List (String × Value)} (hd : (Fields.keys fields).Nodup) :
    Value.table? (fields.map single) = some fields := by
  have hput : (fields.map single).foldl (fun table f => putPath f.1 f.2 table) [] = fields := by
    rw [List.foldl_map]
    exact Fields.foldl_put [] hd
  rw [Value.table?, if_pos (allApart_single hd)]
  exact congrArg some hput

/-! ### The table of sections -/

/-- A section with a name, as the layout gives it. -/
def named (s : String × List (String × Value)) : Section :=
  ⟨[s.1], false, s.2.map single⟩

theorem joined?_nil (fields : List (String × Value)) : joined? fields [] = some fields := by
  rw [joined?, if_pos List.all_nil, List.append_nil]

theorem nil_joined? (below : List (String × Value)) : joined? [] below = some below := by
  have hnew : below.all (fun f => !Fields.has f.1 ([] : List (String × Value))) = true :=
    List.all_eq_true.mpr fun _ _ => rfl
  rw [joined?, if_pos hnew, List.nil_append]

/-- A section alone makes up the table of its fields. -/
theorem table?_own {fields : List (String × Value)} (hd : (Fields.keys fields).Nodup) (depth : Nat) :
    table? (depth + 1) [⟨[], false, fields.map single⟩] = some fields := by
  simp only [table?, List.filter_cons_of_pos, List.isEmpty_nil, List.filter_nil, table?_single hd,
    Option.bind_eq_bind, Option.bind_some]
  exact joined?_nil fields

/-- Among sections with distinct names just one has a given name. -/
theorem filter_named {sections : List (String × List (String × Value))}
    (hd : (Fields.keys sections).Nodup) {s : String × List (String × Value)} (hs : s ∈ sections) :
    (sections.map named).filter (fun t => t.path.head? = some s.1) = [named s] := by
  induction sections with
  | nil => exact absurd hs List.not_mem_nil
  | cons t sections ih =>
      obtain ⟨ht, hrest⟩ := List.nodup_cons.mp hd
      rcases List.mem_cons.mp hs with rfl | hs
      · have hnone : (sections.map named).filter (fun t => t.path.head? = some s.1) = [] := by
          rw [List.filter_eq_nil_iff]
          intro t ht'
          obtain ⟨u, hu, rfl⟩ := List.mem_map.mp ht'
          have hne : u.1 ≠ s.1 := fun h => ht (h ▸ List.mem_map_of_mem hu)
          simpa [named] using hne
        rw [List.map_cons, List.filter_cons_of_pos (by simp [named]), hnone]
      · have hne : t.1 ≠ s.1 := fun h => ht (h ▸ List.mem_map_of_mem hs)
        rw [List.map_cons, List.filter_cons_of_neg (by simpa [named] using hne), ih hrest hs]

theorem eraseDups_of_nodup {names : List String} (hd : names.Nodup) : names.eraseDups = names := by
  induction names with
  | nil => rfl
  | cons name names ih =>
      obtain ⟨hn, hrest⟩ := List.nodup_cons.mp hd
      have hkept : names.filter (fun n => !n == name) = names := by
        rw [List.filter_eq_self]
        intro n hmem
        have hne : n ≠ name := fun h => hn (h ▸ hmem)
        simpa using hne
      rw [List.eraseDups_cons, hkept, ih hrest]

theorem mapM_eq_some_map {α β γ : Type} {f : β → Option γ} {g : α → β} {h : α → γ} {items : List α}
    (hf : ∀ a ∈ items, f (g a) = some (h a)) : (items.map g).mapM f = some (items.map h) := by
  induction items with
  | nil => rfl
  | cons a items ih =>
      simp only [List.map_cons, List.mapM_cons, hf a List.mem_cons_self, Option.bind_eq_bind,
        Option.bind_some, ih fun b hb => hf b (List.mem_cons_of_mem a hb), Option.pure_def]

/-- Sections with distinct names, seen from the root. -/
theorem table?_named {sections : List (String × List (String × Value))}
    (hnames : (Fields.keys sections).Nodup) (hkeys : ∀ s ∈ sections, (Fields.keys s.2).Nodup)
    (depth : Nat) :
    table? (depth + 2) (⟨[], false, []⟩ :: sections.map named) =
      some (sections.map fun s => (s.1, .table s.2)) := by
  have hown : (⟨[], false, []⟩ :: sections.map named).filter (fun s => s.path.isEmpty) =
      [⟨[], false, []⟩] := by
    have hnone : (sections.map named).filter (fun s => s.path.isEmpty) = [] := by
      rw [List.filter_eq_nil_iff]
      intro t ht
      obtain ⟨s, -, rfl⟩ := List.mem_map.mp ht
      simp [named]
    rw [List.filter_cons_of_pos rfl, hnone]
  have hfirst : firstKeys (⟨[], false, []⟩ :: sections.map named) = sections.map Prod.fst := by
    have hheads : (sections.map named).filterMap (fun s => s.path.head?) = sections.map Prod.fst := by
      rw [List.filterMap_map]
      exact List.filterMap_eq_map_iff_forall_eq_some.mpr fun _ _ => rfl
    rw [firstKeys, List.filterMap_cons_none rfl, hheads]
    exact eraseDups_of_nodup hnames
  have hgroup : ∀ s ∈ sections,
      (⟨[], false, []⟩ :: sections.map named).filter (fun t => t.path.head? = some s.1) = [named s] := by
    intro s hs
    rw [List.filter_cons_of_neg (by simp), filter_named hnames hs]
  have htable : ∀ s ∈ sections, table? (depth + 1) ([named s].map Section.inner) = some s.2 :=
    fun s hs => table?_own (hkeys s hs) depth
  have hroot : Value.table? [] = some [] := rfl
  rw [table?]
  simp only [hown, hfirst, hroot, Option.bind_eq_bind, Option.bind_some]
  rw [mapM_eq_some_map (h := fun s => (s.1, Value.table s.2)) ?_, Option.bind_some, nil_joined?]
  intro s hs
  have hopens : (named s).opensElement = false := rfl
  simp only [hgroup s hs, hopens, Bool.false_eq_true, if_false, List.any_cons, List.any_nil,
    Bool.or_self, htable s hs, Option.bind_some, Option.pure_def]

/-- **Sections with distinct names make up the table of their tables.** -/
theorem rootTable_of_named {sections : List (String × List (String × Value))}
    (hnames : (Fields.keys sections).Nodup) (hkeys : ∀ s ∈ sections, (Fields.keys s.2).Nodup) :
    rootTable (⟨[], false, []⟩ :: sections.map named) =
      some (sections.map fun s => (s.1, .table s.2)) := by
  cases sections with
  | nil =>
      have hd : (Fields.keys ([] : List (String × Value))).Nodup := List.nodup_nil
      exact table?_own hd 0
  | cons s sections =>
      have hdepth : ((⟨[], false, []⟩ :: (s :: sections).map named).map fun t => t.path.length).foldl
          max 0 = 1 := by
        have hones : ∀ ss : List (String × List (String × Value)),
            ((ss.map named).map fun t => t.path.length).foldl max 1 = 1 := by
          intro ss
          induction ss with
          | nil => rfl
          | cons _ _ ih => exact ih
        exact hones sections
      rw [rootTable, hdepth]
      exact table?_named hnames hkeys 0

/-! ### Documents -/

/-- The lines of a section: its header, and a field each. -/
def sectionLines (s : String × List (String × Value)) : List Dialect.Line :=
  .table [s.1] :: (s.2.map single).map .field

theorem groupLines_section (s : String × List (String × Value)) (lines : List Dialect.Line) :
    groupLines (sectionLines s ++ lines) =
      ([], ⟨[s.1], false, s.2.map single ++ (groupLines lines).1⟩ :: (groupLines lines).2) := by
  rw [sectionLines, List.cons_append, groupLines, groupLines_fields]

/-- Sections with empty lines between them. -/
theorem groupLines_sections (sections : List (String × List (String × Value))) :
    groupLines ([Dialect.Line.blank].intercalate (sections.map sectionLines)) =
      ([], sections.map named) := by
  induction sections with
  | nil => rfl
  | cons s sections ih =>
      cases sections with
      | nil =>
          have hlast := groupLines_section s []
          rw [List.append_nil, groupLines, List.append_nil] at hlast
          rw [List.map_cons, List.map_nil, List.intercalate_singleton, hlast]
          rfl
      | cons t sections =>
          rw [List.map_cons, List.map_cons, List.intercalate_cons_cons, List.append_assoc,
            groupLines_section, List.singleton_append, groupLines, ← List.map_cons, ih, List.append_nil]
          rfl

/-- A section is written block by block. -/
def WritesSection (s : String × List (String × Value)) (blocks : List (List Char)) : Prop :=
  List.Forall₂ Tolerant.dialect.Writes (sectionLines s) blocks

theorem writes_sections {sections : List (String × List (String × Value))}
    {blocks : List (List (List Char))} (h : List.Forall₂ WritesSection sections blocks) :
    List.Forall₂ Tolerant.dialect.Writes
      ([Dialect.Line.blank].intercalate (sections.map sectionLines)) ([['\n']].intercalate blocks) := by
  induction h with
  | nil => exact .nil
  | @cons s bs sections blocks hs hrest ih =>
      cases hrest with
      | nil =>
          rw [List.map_cons, List.map_nil, List.intercalate_singleton, List.intercalate_singleton]
          exact hs
      | cons =>
          rw [List.map_cons, List.map_cons, List.intercalate_cons_cons, List.intercalate_cons_cons,
            List.append_assoc, List.append_assoc]
          exact List.rel_append hs (.cons Dialect.writes_blank ih)

/-- **A document of sections is read as the table of these sections.** -/
theorem read?_of_sections {sections : List (String × List (String × Value))}
    {blocks : List (List (List Char))} (h : List.Forall₂ WritesSection sections blocks)
    (hnames : (Fields.keys sections).Nodup) (hkeys : ∀ s ∈ sections, (Fields.keys s.2).Nodup)
    (hreturn : '\r' ∉ ([['\n']].intercalate blocks).flatten)
    (hmark : ([['\n']].intercalate blocks).flatten.head? ≠ some '\uFEFF') :
    read? ([['\n']].intercalate blocks).flatten = some (sections.map fun s => (s.1, .table s.2)) := by
  have hsections := sections?_flatten (writes_sections h) hreturn hmark
  rw [groupLines_sections] at hsections
  rw [read?, hsections, Option.bind_eq_bind, Option.bind_some, rootTable_of_named hnames hkeys]

end PrefixMatch.Toml
