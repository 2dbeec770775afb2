import Mathlib.Data.List.Basic
import PrefixMatch.Files.Tree

/-!
# Files — what is read after writing

* `FileTree.readText_eq_ok_iff`, `FileTree.readText_eq_error_iff`: a text is read when its bytes can be
  read and are UTF-8, and not otherwise.
* `FileTree.read_write`: a path leads to what was last written there.  The entry that a file gets takes no
  directory away (`FileTree.within_put`), so a path that could be followed before leads to the same place
  (`FileTree.Within.follow`).
-/

namespace PrefixMatch.FileTree

variable {t u : FileTree} {path : String} {place other : Place} {entry : FileEntry} {content : ByteArray}

/-! ### Texts -/

theorem readText_eq_ok_iff {text : String} :
    t.readText path = .ok text ↔
      ∃ content, t.read path = .ok content ∧ String.fromUTF8? content = some text := by
  rw [readText]
  cases hread : t.read path with
  | error e => simp [bind, Except.bind]
  | ok content =>
      simp only [bind, Except.bind, Except.ok.injEq, exists_eq_left']
      cases htext : String.fromUTF8? content with
      | none => simp [throw, throwThe, MonadExceptOf.throw]
      | some t => simp [pure, Except.pure]

/-- **A text cannot be read when its bytes cannot, or are not UTF-8.** -/
theorem readText_eq_error_iff {e : IoError} :
    t.readText path = .error e ↔
      t.read path = .error e ∨
        ∃ content, t.read path = .ok content ∧ String.fromUTF8? content = none ∧ e = .notUtf8 := by
  rw [readText]
  cases hread : t.read path with
  | error d => simp [bind, Except.bind]
  | ok content =>
      simp only [bind, Except.bind, reduceCtorEq, false_or, Except.ok.injEq, exists_eq_left']
      cases htext : String.fromUTF8? content with
      | none => simp [throw, throwThe, MonadExceptOf.throw, eq_comm]
      | some t => simp [pure, Except.pure]

/-! ### Entries -/

@[simp] theorem entry?_put_self (t : FileTree) (place : Place) (entry : FileEntry) :
    entry? (t.put place entry) place = some entry := by
  simp [put, entry?]

/-- Whatever lies elsewhere stays there. -/
theorem entry?_put_of_ne (hne : other ≠ place) {old : FileEntry} (h : t.entry? other = some old) :
    entry? (t.put place entry) other = some old := by
  have hfind : (t.put place entry).entries.find? (fun e => e.1 == other) =
      t.entries.find? fun e => e.1 == other := by
    have hkept : (fun e : Place × FileEntry => decide ((e.1 != place) = true ∧ (e.1 == other) = true)) =
        fun e => e.1 == other := by
      funext e
      by_cases he : e.1 = other
      · simp [he, hne]
      · simp [he]
    simp only [put, List.find?_cons, beq_false_of_ne (Ne.symm hne), List.find?_filter, hkept]
  -- what was dropped for the new entry lay at the same place, so no place above it loses its entries
  have hany : (t.entries.any fun e => other.isPrefixOf e.1) = true →
      ((t.put place entry).entries.any fun e => other.isPrefixOf e.1) = true := by
    simp only [List.any_eq_true]
    rintro ⟨e, he, hprefix⟩
    by_cases hplace : e.1 = place
    · exact ⟨(place, entry), List.mem_cons_self, hplace ▸ hprefix⟩
    · exact ⟨e, List.mem_cons_of_mem _ (List.mem_filter.mpr ⟨he, by simpa using hplace⟩), hprefix⟩
  unfold entry? at h ⊢
  rw [hfind]
  cases hold : t.entries.find? fun e => e.1 == other with
  | some e =>
      rw [hold] at h
      exact h
  | none =>
      rw [hold] at h
      simp only [Bool.or_eq_true, Option.ite_none_right_eq_some] at h ⊢
      exact ⟨h.1.imp_right hany, h.2⟩

theorem isDirectoryAt_iff : t.isDirectoryAt place = true ↔ t.entry? place = some .directory := by
  rw [isDirectoryAt]
  cases t.entry? place with
  | none => simp
  | some e => cases e <;> simp

/-! ### Paths -/

/-- What one piece of a path does at a place: it stays there, goes up, or goes down to what exists below.
All three need a directory to start from. -/
inductive Step (t : FileTree) (start : Place) (piece : String) : Place → Prop where
  | stay (hdir : t.isDirectoryAt start = true) (hpiece : piece = "" ∨ piece = ".") : Step t start piece start
  | up (hdir : t.isDirectoryAt start = true) (hpiece : piece = "..") : Step t start piece start.dropLast
  | down (hdir : t.isDirectoryAt start = true) (hname : ¬ (piece = "" ∨ piece = ".")) (hup : piece ≠ "..")
      (hshort : ¬ maxName < piece.utf8ByteSize) (hpresent : (t.entry? (start ++ [piece])).isSome = true) :
      Step t start piece (start ++ [piece])

/-- **A path is followed piece by piece.** -/
theorem follow_cons_iff {start : Place} {piece : String} {pieces : List String} :
    t.follow start (piece :: pieces) = .ok place ↔
      ∃ next, t.Step start piece next ∧ t.follow next pieces = .ok place := by
  rw [follow]
  constructor
  · intro h
    split at h
    · cases h
    next hdir =>
    rw [Bool.not_eq_true', Bool.not_eq_false] at hdir
    split at h
    · next hstay => exact ⟨_, .stay hdir hstay, h⟩
    next hname =>
    split at h
    · next hup => exact ⟨_, .up hdir hup, h⟩
    next hup =>
    split at h
    · cases h
    next hshort =>
    split at h
    · cases h
    · next hentry => exact ⟨_, .down hdir hname hup hshort (by simp [hentry]), h⟩
  · rintro ⟨next, hstep, h⟩
    cases hstep with
    | stay hdir hpiece => simp [hdir, hpiece, h]
    | up hdir hpiece =>
        subst hpiece
        simp [hdir, h]
    | down hdir hname hup hshort hpresent =>
        obtain ⟨e, he⟩ := Option.isSome_iff_exists.mp hpresent
        simp only [hdir, Bool.not_true, Bool.false_eq_true, if_false, if_neg hname, if_neg hup,
          if_neg hshort, he, h]

theorem follow_append_iff {start : Place} {above below : List String} :
    t.follow start (above ++ below) = .ok place ↔
      ∃ middle, t.follow start above = .ok middle ∧ t.follow middle below = .ok place := by
  induction above generalizing start with
  | nil => simp [follow]
  | cons piece above ih =>
      simp only [List.cons_append, follow_cons_iff, ih]
      constructor
      · rintro ⟨next, hstep, middle, habove, hbelow⟩
        exact ⟨middle, ⟨next, hstep, habove⟩, hbelow⟩
      · rintro ⟨middle, ⟨next, hstep, habove⟩, hbelow⟩
        exact ⟨next, hstep, middle, habove, hbelow⟩

/-- A tree lies within another one when its directories are directories there as well, and whatever exists
exists there. -/
structure Within (t u : FileTree) : Prop where
  directory : ∀ place, t.isDirectoryAt place = true → u.isDirectoryAt place = true
  present : ∀ place, (t.entry? place).isSome = true → (u.entry? place).isSome = true

theorem Within.step (h : t.Within u) {start next : Place} {piece : String} (hs : t.Step start piece next) :
    u.Step start piece next := by
  cases hs with
  | stay hdir hpiece => exact .stay (h.directory _ hdir) hpiece
  | up hdir hpiece => exact .up (h.directory _ hdir) hpiece
  | down hdir hname hup hshort hpresent =>
      exact .down (h.directory _ hdir) hname hup hshort (h.present _ hpresent)

/-- A path leads to the same place in every tree that a tree lies within. -/
theorem Within.follow (h : t.Within u) {start : Place} {pieces : List String}
    (hp : t.follow start pieces = .ok place) : u.follow start pieces = .ok place := by
  induction pieces generalizing start with
  | nil => exact hp
  | cons piece pieces ih =>
      obtain ⟨next, hstep, hp⟩ := follow_cons_iff.mp hp
      exact follow_cons_iff.mpr ⟨next, h.step hstep, ih hp⟩

/-- An entry that takes the place of no directory takes no directory away. -/
theorem within_put (h : t.isDirectoryAt place = false) (entry : FileEntry) : t.Within (t.put place entry) where
  directory d hd := by
    have hne : d ≠ place := by
      rintro rfl
      rw [h] at hd
      cases hd
    exact isDirectoryAt_iff.mpr (entry?_put_of_ne hne (isDirectoryAt_iff.mp hd))
  present d hd := by
    by_cases hne : d = place
    · subst hne
      simp
    · obtain ⟨e, he⟩ := Option.isSome_iff_exists.mp hd
      simp [entry?_put_of_ne hne he]

/-! ### Writing -/

/-- What a tree needs for a file to be written: the last piece of the path is a name, what is above it leads
to a directory, and no directory has that name there. -/
structure Writes (t : FileTree) (path : String) (place : Place) (name : String) : Prop where
  noNul : '\x00' ∉ path.toList
  pieces : ∃ above, FileTree.pieces path = above ++ [name] ∧ t.follow (t.startOf path) above = .ok place
  directory : t.isDirectoryAt place = true
  isName : ¬ (name = "" ∨ name = ".")
  notUp : name ≠ ".."
  short : ¬ maxName < name.utf8ByteSize
  free : t.isDirectoryAt (place ++ [name]) = false

/-- Taking empty pieces off the end takes none off when the last one is left over. -/
theorem eq_append_of_named {all : List String} {name : String}
    (hfull : ¬ (all.reverse.dropWhile (· = "")).reverse.length < all.length)
    (hlast : (all.reverse.dropWhile (· = "")).reverse.getLast? = some name) :
    (all.reverse.dropWhile (· = "")).reverse = all ∧ name ≠ "" := by
  have hwhole : all.reverse.dropWhile (· = "") = all.reverse := by
    refine (List.dropWhile_suffix _).eq_of_length ?_
    have hle := (List.dropWhile_suffix (l := all.reverse) fun piece => decide (piece = "")).length_le
    simp only [List.length_reverse] at hfull hle ⊢
    omega
  refine ⟨by rw [hwhole, List.reverse_reverse], ?_⟩
  rintro rfl
  rw [List.getLast?_reverse] at hlast
  have hhead := List.head?_dropWhile_not (fun piece => decide (piece = "")) all.reverse
  rw [hlast] at hhead
  simp at hhead

/-- **A file is written where its path leads to.** -/
theorem exists_writes_of_write (h : t.write path content = .ok u) :
    ∃ place name, t.Writes path place name ∧ u = t.put (place ++ [name]) (.file content) := by
  simp only [write, bind, Except.bind, throw, throwThe, MonadExceptOf.throw, pure, Except.pure] at h
  -- one split for each check, in the order in which they are made
  split at h
  · cases h
  next hnul =>
  split at h
  · cases h
  next _ place hfollow =>
  split at h
  · cases h
  next hdir =>
  split at h
  · cases h
  next name hlast =>
  split at h
  · cases h
  next hplain =>
  split at h
  · cases h
  next hshort =>
  split at h
  · cases h
  next hfree =>
  cases h
  rw [not_or, not_or] at hplain
  obtain ⟨hnamed, hne⟩ := eq_append_of_named hplain.1 hlast
  rw [hnamed] at hfollow hlast
  refine ⟨place, name, ⟨by simpa using hnul, ⟨_, ?_, hfollow⟩, by simpa using hdir, by simp [hne, hplain.2.1],
    hplain.2.2, hshort, ?_⟩, rfl⟩
  · exact (List.dropLast_append_getLast? _ hlast).symm
  · rw [← Bool.not_eq_true, isDirectoryAt_iff]
    exact hfree

/-- A path with nothing in it names no file. -/
theorem Writes.isEmpty_eq_false {name : String} (h : t.Writes path place name) : path.isEmpty = false := by
  obtain ⟨above, hpieces, -⟩ := h.pieces
  by_contra hempty
  rw [Bool.not_eq_false, String.isEmpty_iff] at hempty
  subst hempty
  have hone : [""] = above ++ [name] := hpieces
  have hname : above = [] ∧ name = "" := by simpa [List.singleton_eq_append_iff] using hone
  exact h.isName (.inl hname.2)

/-- **A path leads to what was last written there.** -/
theorem read_write (h : t.write path content = .ok u) : u.read path = .ok content := by
  obtain ⟨place, name, hwrites, rfl⟩ := exists_writes_of_write h
  obtain ⟨above, hpieces, habove⟩ := hwrites.pieces
  have hwithin := within_put hwrites.free (.file content)
  have hlast : Step (t.put (place ++ [name]) (.file content)) place name (place ++ [name]) :=
    .down (hwithin.directory place hwrites.directory) hwrites.isName hwrites.notUp hwrites.short (by simp)
  have hfollow : (t.put (place ++ [name]) (.file content)).follow (t.startOf path) (pieces path) =
      .ok (place ++ [name]) := by
    rw [hpieces, follow_append_iff]
    exact ⟨place, hwithin.follow habove, follow_cons_iff.mpr ⟨_, hlast, rfl⟩⟩
  have hlocate : (t.put (place ++ [name]) (.file content)).locate path = .ok (place ++ [name]) := by
    rw [locate, hwrites.isEmpty_eq_false, if_neg Bool.false_ne_true, if_neg (by simpa using hwrites.noNul)]
    exact hfollow
  simp only [read, hlocate, bind, Except.bind, entry?_put_self]
  rfl

end PrefixMatch.FileTree
