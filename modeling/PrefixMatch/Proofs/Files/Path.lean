import PrefixMatch.Files.Path
import PrefixMatch.Proofs.Text.Lines

/-!
# Files — the last segment of a path

A path text is read as a directory text, a last segment, and what carries no name behind it.

* `segments_append`: a slash separates the segments before it from those behind it.
* `getLast?_segments_eq_some_iff`: the last segment is the one that `LastSegment` describes.
* `extension?_eq_some_iff`: an extension is what stands behind the last dot of that segment, unless the dot
  comes first.
-/

namespace PrefixMatch.Path

/-! ### Segments -/

/-- What may stand behind the last segment: slashes, and single dots behind a slash. -/
inductive Trailing : List Char → Prop where
  | nil : Trailing []
  | slash {cs : List Char} (h : Trailing cs) : Trailing ('/' :: cs)
  | dot {cs : List Char} (h : Trailing cs) : Trailing ('/' :: '.' :: cs)

/-- A text without slashes that carries a name or leads upwards. -/
structure IsSegment (s : List Char) : Prop where
  no_slash : '/' ∉ s
  ne_nil : s ≠ []
  ne_dot : s ≠ ['.']

/-- `s` is the last segment of a path: it stands alone or below a directory, and only what is trailing
stands behind it. -/
inductive LastSegment : List Char → List Char → Prop where
  | alone {s tail : List Char} (hs : IsSegment s) (ht : Trailing tail) : LastSegment (s ++ tail) s
  | below (dir : List Char) {s tail : List Char} (hs : IsSegment s) (ht : Trailing tail) :
      LastSegment (dir ++ '/' :: (s ++ tail)) s

/-- **A slash separates segments.** -/
theorem segments_append (dir rest : List Char) :
    segments (dir ++ '/' :: rest) = segments dir ++ segments rest := by
  rw [segments, Text.split_append, List.filter_append]; rfl

@[simp] theorem segments_nil : segments [] = [] := rfl

@[simp] theorem segments_dot : segments ['.'] = [] := rfl

theorem segments_of_no_slash {s : List Char} (h : '/' ∉ s) :
    segments s = [s].filter fun s => !(s.isEmpty || s == ['.']) := by
  rw [segments, Text.split_of_not_mem h]

theorem IsSegment.segments_eq {s : List Char} (h : IsSegment s) : segments s = [s] := by
  rw [segments_of_no_slash h.no_slash]
  simp [h.ne_nil, h.ne_dot]

theorem isSegment_of_mem_segments {s path : List Char} (h : s ∈ segments path) : IsSegment s := by
  obtain ⟨hs, hkept⟩ := List.mem_filter.mp h
  simp only [Bool.not_eq_true', Bool.or_eq_false_iff, List.isEmpty_eq_false_iff,
    beq_eq_false_iff_ne] at hkept
  exact ⟨Text.not_mem_of_mem_split hs, hkept.1, hkept.2⟩

/-! ### The last segment -/

/-- What is trailing adds no segment. -/
theorem Trailing.segments_append {tail : List Char} (h : Trailing tail) (path : List Char) :
    segments (path ++ tail) = segments path := by
  induction h generalizing path with
  | nil => rw [List.append_nil]
  | @slash cs _ ih =>
      have hcs := ih []
      rw [List.nil_append] at hcs
      rw [Path.segments_append, hcs, segments_nil, List.append_nil]
  | @dot cs _ ih =>
      have hcs := ih ['.']
      rw [List.singleton_append] at hcs
      rw [Path.segments_append, hcs, segments_dot, List.append_nil]

theorem LastSegment.getLast?_segments {path s : List Char} (h : LastSegment path s) :
    (segments path).getLast? = some s := by
  cases h with
  | alone hs ht => rw [ht.segments_append, hs.segments_eq, List.getLast?_singleton]
  | below dir hs ht =>
      rw [segments_append, ht.segments_append, hs.segments_eq, List.getLast?_concat]

theorem trailing_flatMap {pieces : List (List Char)} (h : ∀ p ∈ pieces, p = [] ∨ p = ['.']) :
    Trailing (pieces.flatMap ('/' :: ·)) := by
  induction pieces with
  | nil => exact .nil
  | cons p ps ih =>
      obtain ⟨hp, hps⟩ := List.forall_mem_cons.mp h
      rcases hp with rfl | rfl
      · exact .slash (ih hps)
      · exact .dot (ih hps)

theorem lastSegment_of_getLast?_segments {path s : List Char} (h : (segments path).getLast? = some s) :
    LastSegment path s := by
  have hs := isSegment_of_mem_segments (List.mem_of_getLast? h)
  -- the pieces behind the last one that is kept carry no name
  obtain ⟨kept, hkept⟩ := List.getLast?_eq_some_iff.mp h
  obtain ⟨front, back, hsplit, -, hback⟩ := List.filter_eq_append_iff.mp hkept
  obtain ⟨dropped, post, rfl, -, -, hpost⟩ := List.filter_eq_cons_iff.mp hback
  have htail : Trailing (post.flatMap ('/' :: ·)) := by
    refine trailing_flatMap fun p hp => ?_
    have hnot := List.filter_eq_nil_iff.mp hpost p hp
    exact Classical.or_iff_not_imp_left.mpr (by simpa using hnot)
  rw [← List.append_assoc] at hsplit
  rw [← Text.join_split '/' path, hsplit]
  cases front ++ dropped with
  | nil =>
      rw [List.nil_append, Text.join_cons]
      exact .alone hs htail
  | cons p ps =>
      rw [List.cons_append, Text.join_cons, List.flatMap_append, List.flatMap_cons, ← List.append_assoc]
      exact .below _ hs htail

/-- **The last segment** is found by leaving out what is trailing. -/
theorem getLast?_segments_eq_some_iff {path s : List Char} :
    (segments path).getLast? = some s ↔ LastSegment path s :=
  ⟨lastSegment_of_getLast?_segments, LastSegment.getLast?_segments⟩

/-! ### The extension -/

theorem fileName?_eq_some_iff {path name : List Char} :
    fileName? path = some name ↔ LastSegment path name ∧ name ≠ ['.', '.'] := by
  rw [← getLast?_segments_eq_some_iff, fileName?]
  cases (segments path).getLast? with
  | none => simp
  | some last =>
      by_cases hup : last = ['.', '.']
      · simp only [hup, if_true, Option.some.injEq]
        exact ⟨nofun, fun h => absurd h.1.symm h.2⟩
      · simp only [if_neg hup, Option.some.injEq]
        exact ⟨fun h => ⟨h, h ▸ hup⟩, And.left⟩

theorem splitLastDot_eq_none_iff {name : List Char} : splitLastDot name = none ↔ '.' ∉ name := by
  induction name with
  | nil => simp [splitLastDot]
  | cons c cs ih =>
      rw [splitLastDot, List.mem_cons, not_or, ← ih]
      cases splitLastDot cs with
      | none => by_cases hc : c = '.' <;> simp [hc, eq_comm]
      | some p => simp

/-- **A name is split at its last dot**, where it has one. -/
theorem splitLastDot_eq_some_iff {name stem ext : List Char} :
    splitLastDot name = some (stem, ext) ↔ name = stem ++ '.' :: ext ∧ '.' ∉ ext := by
  induction name generalizing stem with
  | nil => simp [splitLastDot]
  | cons c cs ih =>
      rw [splitLastDot]
      cases stem with
      | nil =>
          -- the first character is the last dot just when it is a dot and none follows
          rw [List.nil_append, List.cons.injEq, and_assoc]
          cases hcs : splitLastDot cs with
          | none =>
              have hno : '.' ∉ cs := splitLastDot_eq_none_iff.mp hcs
              by_cases hc : c = '.'
              · simp only [hc, if_true, Option.some.injEq, Prod.mk.injEq, true_and]
                exact ⟨fun h => ⟨h, h ▸ hno⟩, And.left⟩
              · simp [hc]
          | some p =>
              have hdot : '.' ∈ cs := Classical.byContradiction fun hno => by
                rw [splitLastDot_eq_none_iff.mpr hno] at hcs
                cases hcs
              refine ⟨by simp, ?_⟩
              rintro ⟨-, rfl, hno⟩
              exact absurd hdot hno
      | cons d ds =>
          rw [List.cons_append, List.cons.injEq, and_assoc, ← ih]
          cases splitLastDot cs with
          | none => by_cases hc : c = '.' <;> simp [hc]
          | some p => simp [Prod.ext_iff, and_assoc]

/-- The extension of a name: what stands behind its last dot, unless that dot comes first. -/
theorem nameExtension?_eq_some_iff {name ext : List Char} :
    nameExtension? name = some ext ↔ ∃ stem, stem ≠ [] ∧ name = stem ++ '.' :: ext ∧ '.' ∉ ext := by
  simp only [← splitLastDot_eq_some_iff]
  rw [nameExtension?]
  split
  · next hsplit => simp [hsplit]
  · next hnot =>
    refine ⟨nofun, ?_⟩
    rintro ⟨_ | ⟨c, cs⟩, hne, h⟩
    · exact absurd rfl hne
    · exact absurd h (hnot c cs ext)

/-- **The extension of a path** is that of its last segment, unless this leads upwards. -/
theorem extension?_eq_some_iff {path ext : List Char} :
    extension? path = some ext ↔
      ∃ name stem, LastSegment path name ∧ name ≠ ['.', '.'] ∧
        stem ≠ [] ∧ name = stem ++ '.' :: ext ∧ '.' ∉ ext := by
  simp only [extension?, Option.bind_eq_some_iff, fileName?_eq_some_iff, nameExtension?_eq_some_iff]
  constructor
  · rintro ⟨name, ⟨hlast, hup⟩, stem, hstem⟩
    exact ⟨name, stem, hlast, hup, hstem⟩
  · rintro ⟨name, stem, hlast, hup, hstem⟩
    exact ⟨name, ⟨hlast, hup⟩, stem, hstem⟩

/-- Paths with the same last segment, or both without any, have the same extension. -/
theorem extension?_congr {path path' : List Char}
    (h : (segments path).getLast? = (segments path').getLast?) : extension? path = extension? path' := by
  rw [extension?, extension?, fileName?, fileName?, h]

end PrefixMatch.Path
