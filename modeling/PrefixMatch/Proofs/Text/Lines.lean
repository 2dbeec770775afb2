import Mathlib.Data.List.Basic
import PrefixMatch.Text.Lines

/-!
# Text — the lines of a text

`IsLine cs line` says where a line stands in a text: behind the start or a newline, up to the next newline
or the end.

* `mem_lines_iff`: the lines of a text are just these.
* `lines_flatten`: a text that is put together from pieces, each followed by a newline, has these pieces as
  its lines, unless one of them has a newline inside or ends in a carriage return.
* `lines_withReturns`: carriage returns before all newlines leave the lines as they are.
-/

namespace PrefixMatch.Text

/-! ### Pieces -/

/-- **A separator ends a piece.**  Everything about pieces follows from this equation. -/
theorem split_append (sep : Char) (cs rest : List Char) :
    split sep (cs ++ sep :: rest) = split sep cs ++ split sep rest := by
  induction cs with
  | nil => simp [split]
  | cons c cs ih =>
      by_cases h : c = sep
      · simp [split, h, ih]
      · obtain ⟨piece, pieces, hsplit⟩ := List.exists_cons_of_ne_nil (split_ne_nil sep cs)
        simp [split, h, ih, hsplit]

/-- Joined pieces are the first one, and the others each behind a separator. -/
theorem join_cons (sep : Char) (piece : List Char) (pieces : List (List Char)) :
    join sep (piece :: pieces) = piece ++ pieces.flatMap (sep :: ·) := by
  induction pieces generalizing piece with
  | nil => simp [join]
  | cons p ps ih => simp [join, ih]

theorem split_of_not_mem {sep : Char} {piece : List Char} (h : sep ∉ piece) :
    split sep piece = [piece] := by
  induction piece with
  | nil => rfl
  | cons c cs ih =>
      rw [List.mem_cons, not_or] at h
      simp [split, Ne.symm h.1, ih h.2]

/-- A piece ends at the first separator. -/
theorem split_append_sep {sep : Char} {piece : List Char} (h : sep ∉ piece) (rest : List Char) :
    split sep (piece ++ sep :: rest) = piece :: split sep rest := by
  rw [split_append, split_of_not_mem h, List.singleton_append]

theorem split_flatten {sep : Char} {pieces : List (List Char)} (h : ∀ p ∈ pieces, sep ∉ p) :
    split sep (pieces.map (· ++ [sep])).flatten = pieces ++ [[]] := by
  induction pieces with
  | nil => rfl
  | cons p ps ih =>
      rw [List.map_cons, List.flatten_cons, List.append_assoc, List.singleton_append,
        split_append_sep (h p List.mem_cons_self), ih fun q hq => h q (List.mem_cons_of_mem p hq),
        List.cons_append]

/-- Texts with a separator behind each have their own pieces, one after the other. -/
theorem split_flatten_eq (sep : Char) (texts : List (List Char)) :
    split sep (texts.map (· ++ [sep])).flatten = texts.flatMap (split sep) ++ [[]] := by
  induction texts with
  | nil => rfl
  | cons t ts ih =>
      rw [List.map_cons, List.flatten_cons, List.append_assoc, List.singleton_append, split_append, ih,
        List.flatMap_cons, List.append_assoc]

theorem not_mem_of_mem_split {sep : Char} {piece cs : List Char} (h : piece ∈ split sep cs) : sep ∉ piece := by
  induction cs generalizing piece with
  | nil =>
      rw [split, List.mem_singleton] at h
      subst h
      exact List.not_mem_nil
  | cons c cs ih =>
      by_cases hc : c = sep
      · rw [split, if_pos hc, List.mem_cons] at h
        rcases h with rfl | h
        · exact List.not_mem_nil
        · exact ih h
      · obtain ⟨first, pieces, hsplit⟩ := List.exists_cons_of_ne_nil (split_ne_nil sep cs)
        simp only [split, if_neg hc, hsplit, List.mem_cons] at h
        rw [hsplit] at ih
        rcases h with rfl | h
        · rw [List.mem_cons, not_or]
          exact ⟨Ne.symm hc, ih List.mem_cons_self⟩
        · exact ih (List.mem_cons_of_mem first h)

/-- **Texts can be told apart by their separators just when none of them has one inside.** -/
theorem split_flatten_iff (sep : Char) (texts : List (List Char)) :
    split sep (texts.map (· ++ [sep])).flatten = texts ++ [[]] ↔ ∀ t ∈ texts, sep ∉ t := by
  refine ⟨fun h t ht => ?_, split_flatten⟩
  have hmem : t ∈ split sep (texts.map (· ++ [sep])).flatten := h ▸ List.mem_append_left _ ht
  exact not_mem_of_mem_split hmem

theorem count_flatten_cons (sep : Char) (t : List Char) (ts : List (List Char)) :
    ((t :: ts).map (· ++ [sep])).flatten.count sep = t.count sep + (ts.map (· ++ [sep])).flatten.count sep + 1 := by
  rw [List.map_cons, List.flatten_cons, List.count_append, List.count_append, List.count_singleton_self]
  omega

theorem length_le_count_flatten (sep : Char) (texts : List (List Char)) :
    texts.length ≤ (texts.map (· ++ [sep])).flatten.count sep := by
  induction texts with
  | nil => exact Nat.zero_le _
  | cons t ts ih =>
      rw [count_flatten_cons, List.length_cons]
      omega

/-- There are as many separators as texts just when no text has one inside. -/
theorem count_flatten_iff (sep : Char) (texts : List (List Char)) :
    (texts.map (· ++ [sep])).flatten.count sep = texts.length ↔ ∀ t ∈ texts, sep ∉ t := by
  induction texts with
  | nil => simp
  | cons t ts ih =>
      have hle := length_le_count_flatten sep ts
      rw [count_flatten_cons, List.length_cons, List.forall_mem_cons, ← ih, ← List.count_eq_zero]
      omega

/-- A property of all texts: it holds of a text without newlines, and of a piece with a newline behind it
and a text that has the property. -/
@[elab_as_elim]
theorem induction_on_pieces {motive : List Char → Prop} (last : ∀ piece, '\n' ∉ piece → motive piece)
    (next : ∀ piece rest, '\n' ∉ piece → motive rest → motive (piece ++ '\n' :: rest))
    (cs : List Char) : motive cs := by
  by_cases h : '\n' ∈ cs
  · obtain ⟨piece, rest, rfl, hpiece⟩ := List.eq_append_cons_of_mem h
    have hshorter : rest.length < (piece ++ '\n' :: rest).length := by
      rw [List.length_append, List.length_cons]
      omega
    exact next piece rest hpiece (induction_on_pieces last next rest)
  · exact last cs h
termination_by cs.length

/-! ### Lines -/

theorem dropReturn_of_last {piece : List Char} (h : piece.getLast? ≠ some '\r') :
    dropReturn piece = piece := by
  rw [dropReturn, if_neg h]

@[simp] theorem dropReturn_return (piece : List Char) : dropReturn (piece ++ ['\r']) = piece := by
  simp [dropReturn]

/-- All pieces are lines that further pieces follow. -/
theorem linesOfPieces_append (pieces : List (List Char)) {more : List (List Char)} (h : more ≠ []) :
    linesOfPieces (pieces ++ more) = pieces.map dropReturn ++ linesOfPieces more := by
  induction pieces with
  | nil => rfl
  | cons p ps ih =>
      obtain ⟨q, qs, hqs⟩ := List.exists_cons_of_ne_nil (List.append_ne_nil_of_right_ne_nil ps h)
      rw [List.cons_append, List.map_cons, List.cons_append, ← ih, hqs, linesOfPieces]
      exact List.cons_ne_nil q qs

/-- Every piece but the empty last one is a line. -/
theorem linesOfPieces_append_nil (pieces : List (List Char)) :
    linesOfPieces (pieces ++ [[]]) = pieces.map dropReturn := by
  rw [linesOfPieces_append pieces (List.cons_ne_nil _ _)]
  exact List.append_nil _

/-- **A newline ends a line.** -/
theorem lines_append_newline (cs rest : List Char) :
    lines (cs ++ '\n' :: rest) = (split '\n' cs).map dropReturn ++ lines rest := by
  rw [lines, split_append, linesOfPieces_append _ (split_ne_nil _ _), lines]

theorem lines_of_not_mem {piece : List Char} (h : '\n' ∉ piece) :
    lines piece = if piece = [] then [] else [piece] := by
  rw [lines, split_of_not_mem h, linesOfPieces]

theorem lines_append_piece {piece : List Char} (h : '\n' ∉ piece) (rest : List Char) :
    lines (piece ++ '\n' :: rest) = dropReturn piece :: lines rest := by
  rw [lines_append_newline, split_of_not_mem h]
  rfl

/-- **Pieces with a newline behind each are the lines of their text.** -/
theorem lines_flatten {pieces : List (List Char)}
    (h : ∀ p ∈ pieces, '\n' ∉ p ∧ p.getLast? ≠ some '\r') :
    lines (pieces.map (· ++ ['\n'])).flatten = pieces := by
  rw [lines, split_flatten fun p hp => (h p hp).1, linesOfPieces_append_nil]
  exact (List.map_congr_left fun p hp => dropReturn_of_last (h p hp).2).trans (List.map_id pieces)

/-! ### Where lines stand -/

/-- A line may start behind a part of a text that is empty, or ends in a newline. -/
def StartsLine (before : List Char) : Prop :=
  before = [] ∨ ∃ earlier, before = earlier ++ ['\n']

/-- A line of a text has no newline inside.  A newline ends it, together with one carriage return directly
before; or the text ends, and the line is not empty. -/
inductive IsLine (cs : List Char) : List Char → Prop where
  | newline (before line after : List Char) (h : cs = before ++ (line ++ '\n' :: after))
      (hstart : StartsLine before) (hline : '\n' ∉ line) (hlast : line.getLast? ≠ some '\r') :
      IsLine cs line
  | returned (before line after : List Char) (h : cs = before ++ (line ++ '\r' :: '\n' :: after))
      (hstart : StartsLine before) (hline : '\n' ∉ line) : IsLine cs line
  | last (before line : List Char) (h : cs = before ++ line) (hstart : StartsLine before)
      (hline : '\n' ∉ line) (hne : line ≠ []) : IsLine cs line

theorem StartsLine.append (earlier : List Char) {before : List Char} (h : StartsLine before) :
    StartsLine (earlier ++ '\n' :: before) := by
  rcases h with rfl | ⟨more, rfl⟩
  · exact .inr ⟨earlier, rfl⟩
  · exact .inr ⟨earlier ++ '\n' :: more, by simp⟩

/-- What stands before a line leaves the lines behind it as they are. -/
theorem StartsLine.lines_append {before : List Char} (h : StartsLine before) (cs : List Char) :
    ∃ earlier, lines (before ++ cs) = earlier ++ lines cs := by
  rcases h with rfl | ⟨earlier, rfl⟩
  · exact ⟨[], rfl⟩
  · rw [List.append_assoc, List.singleton_append, lines_append_newline]
    exact ⟨_, rfl⟩

theorem IsLine.not_mem_newline {cs line : List Char} (h : IsLine cs line) : '\n' ∉ line := by
  cases h with
  | newline _ _ _ _ _ hline _ => exact hline
  | returned _ _ _ _ _ hline => exact hline
  | last _ _ _ _ hline _ => exact hline

/-- A line stays one behind further pieces. -/
theorem IsLine.append (earlier : List Char) {cs line : List Char} (h : IsLine cs line) :
    IsLine (earlier ++ '\n' :: cs) line := by
  cases h with
  | newline before _ after h hstart hline hlast =>
      exact .newline (earlier ++ '\n' :: before) line after (by simp [h]) (hstart.append earlier) hline hlast
  | returned before _ after h hstart hline =>
      exact .returned (earlier ++ '\n' :: before) line after (by simp [h]) (hstart.append earlier) hline
  | last before _ h hstart hline hne =>
      exact .last (earlier ++ '\n' :: before) line (by simp [h]) (hstart.append earlier) hline hne

theorem isLine_of_mem_lines {cs line : List Char} (h : line ∈ lines cs) : IsLine cs line := by
  induction cs using induction_on_pieces with
  | last piece hpiece =>
      rw [lines_of_not_mem hpiece] at h
      split at h
      · cases h
      · next hne =>
        rw [List.mem_singleton] at h
        subst h
        exact .last [] _ rfl (.inl rfl) hpiece hne
  | next piece rest hpiece ih =>
      rw [lines_append_piece hpiece, List.mem_cons] at h
      rcases h with rfl | h
      · by_cases hlast : piece.getLast? = some '\r'
        · obtain ⟨line, rfl⟩ := List.getLast?_eq_some_iff.mp hlast
          rw [dropReturn_return]
          have hline : '\n' ∉ line := fun hmem => hpiece (List.mem_append_left _ hmem)
          exact .returned [] line rest (by simp) (.inl rfl) hline
        · rw [dropReturn_of_last hlast]
          exact .newline [] piece rest rfl (.inl rfl) hpiece hlast
      · exact (ih h).append piece

theorem IsLine.mem_lines {cs line : List Char} (h : IsLine cs line) : line ∈ lines cs := by
  cases h with
  | newline before _ after h hstart hline hlast =>
      subst h
      obtain ⟨earlier, heq⟩ := hstart.lines_append (line ++ '\n' :: after)
      rw [heq, lines_append_piece hline, dropReturn_of_last hlast]
      simp
  | returned before _ after h hstart hline =>
      subst h
      have hreturned : '\n' ∉ line ++ ['\r'] := by simpa using hline
      have hpiece := lines_append_piece hreturned after
      rw [List.append_assoc, List.singleton_append, dropReturn_return] at hpiece
      obtain ⟨earlier, heq⟩ := hstart.lines_append (line ++ '\r' :: '\n' :: after)
      rw [heq, hpiece]
      simp
  | last before _ h hstart hline hne =>
      subst h
      obtain ⟨earlier, heq⟩ := hstart.lines_append line
      rw [heq, lines_of_not_mem hline, if_neg hne]
      simp

/-- **The lines of a text are the pieces between its newlines**, each without one carriage return directly
before its newline. -/
theorem mem_lines_iff (cs line : List Char) : line ∈ lines cs ↔ IsLine cs line :=
  ⟨isLine_of_mem_lines, IsLine.mem_lines⟩

/-! ### Carriage returns -/

/-- A text with a carriage return put before each newline. -/
def withReturns (cs : List Char) : List Char :=
  cs.flatMap fun c => if c = '\n' then ['\r', '\n'] else [c]

theorem withReturns_of_not_mem {piece : List Char} (h : '\n' ∉ piece) : withReturns piece = piece := by
  induction piece with
  | nil => rfl
  | cons c cs ih =>
      rw [List.mem_cons, not_or] at h
      have ih := ih h.2
      rw [withReturns] at ih
      simp [withReturns, Ne.symm h.1, ih]

theorem withReturns_append_piece {piece : List Char} (h : '\n' ∉ piece) (rest : List Char) :
    withReturns (piece ++ '\n' :: rest) = (piece ++ ['\r']) ++ '\n' :: withReturns rest := by
  have hpiece := withReturns_of_not_mem h
  rw [withReturns] at hpiece
  simp [withReturns, hpiece]

/-- **Newlines with carriage returns before them end the same lines**, in a text that has no others. -/
theorem lines_withReturns {cs : List Char} (h : '\r' ∉ cs) : lines (withReturns cs) = lines cs := by
  induction cs using induction_on_pieces with
  | last piece hpiece => rw [withReturns_of_not_mem hpiece]
  | next piece rest hpiece ih =>
      simp only [List.mem_append, List.mem_cons, not_or] at h
      obtain ⟨hreturn, -, hrest⟩ := h
      have hreturned : '\n' ∉ piece ++ ['\r'] := by simpa using hpiece
      have hlast : piece.getLast? ≠ some '\r' := fun hlast => hreturn (List.mem_of_getLast? hlast)
      rw [withReturns_append_piece hpiece, lines_append_piece hreturned, lines_append_piece hpiece,
        dropReturn_return, dropReturn_of_last hlast, ih hrest]

end PrefixMatch.Text
