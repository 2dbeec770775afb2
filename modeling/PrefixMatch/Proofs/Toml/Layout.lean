import Mathlib.Data.List.TakeWhile
import PrefixMatch.Proofs.Toml.RootKeys

/-!
# Toml — the layout of a text

`Toml.Exact.Layout lines text` says which lines make up a text: headers, fields, comments and empty lines, one
behind the other.  Keys are spelled in any of their ways, paths have dots and blanks between their keys, and
a value reaches as far as it is read.  What the reader finds is such a layout (`Exact.layout_of_lines?`), and
a text has no other (`Exact.Layout.unique`).
-/

namespace PrefixMatch.Toml

open Text (digitsValue? hexValue?)

/-! ### Keys -/

/-- A key at the start of a text: as many bare characters as there are, or a string on one line. -/
inductive KeyAt : String → List Char → List Char → Prop
  | bare {cs rest : List Char} (hne : cs ≠ []) (hb : ∀ c ∈ cs, isBare c = true)
      (hend : ∀ c ∈ rest.head?, isBare c = false) : KeyAt (String.ofList cs) (cs ++ rest) rest
  | quoted {mark : Char} {key : String} {raw rest : List Char} (hmark : mark = '"' ∨ mark = '\'')
      (h : Spells mark key.toList raw) : KeyAt key (mark :: (raw ++ mark :: rest)) rest

theorem exists_of_numbered? {count : Nat} {cs rest : List Char} {c : Char}
    (h : numbered? count cs = some (c, rest)) :
    ∃ ds, ds.length = count ∧ digitsValue? 16 hexValue? ds 0 = some c.toNat ∧ cs = ds ++ rest := by
  by_cases hlen : cs.length < count
  · simp [numbered?, Text.takeHex?, hlen] at h
  · simp only [numbered?, Text.takeHex?, if_neg hlen, Option.bind_eq_bind, Option.bind_map,
      Option.bind_eq_some_iff, Function.comp_apply, Option.pure_def, Option.some.injEq,
      Prod.mk.injEq] at h
    obtain ⟨n, hn, d, hd, rfl, rfl⟩ := h
    refine ⟨cs.take count, ?_, ?_, (List.take_append_drop count cs).symm⟩
    · rw [List.length_take, Nat.min_eq_left (Nat.not_lt.mp hlen)]
    · rw [hn, Text.toNat_of_charOfNat? hd]

theorem exists_of_escape? {cs rest : List Char} {c : Char} (h : escape? cs = some (c, rest)) :
    ∃ e, IsEscape c e ∧ cs = e ++ rest := by
  cases cs with
  | nil => cases h
  | cons d ds =>
      by_cases hu : d = 'u'
      · subst hu
        obtain ⟨digits, hl, hn, rfl⟩ := exists_of_numbered? h
        exact ⟨'u' :: digits, .four hl hn, rfl⟩
      by_cases hU : d = 'U'
      · subst hU
        obtain ⟨digits, hl, hn, rfl⟩ := exists_of_numbered? h
        exact ⟨'U' :: digits, .eight hl hn, rfl⟩
      rw [escape?_cons hu hU] at h
      obtain ⟨e, he, heq⟩ := Option.map_eq_some_iff.mp h
      cases heq
      exact ⟨[d], .letter he, rfl⟩

theorem exists_of_short? {mark : Char} {fuel : Nat} {cs text rest : List Char}
    (h : short? mark fuel cs = some (text, rest)) :
    ∃ raw, Spells mark text raw ∧ cs = raw ++ mark :: rest := by
  induction fuel generalizing cs text with
  | zero => cases h
  | succ fuel ih =>
      cases cs with
      | nil => cases h
      | cons c cs =>
          rw [short?] at h
          split at h
          · next hm =>
            cases h
            exact ⟨[], .nil, by rw [hm]; rfl⟩
          next hm =>
          split at h
          · next hb =>
            simp only [Option.bind_eq_bind, Option.bind_eq_some_iff, Option.pure_def, Option.some.injEq,
              Prod.mk.injEq] at h
            obtain ⟨⟨d, behind⟩, hd, ⟨text, rest⟩, htext, rfl, rfl⟩ := h
            obtain ⟨e, he, rfl⟩ := exists_of_escape? hd
            obtain ⟨raw, hraw, rfl⟩ : ∃ raw, Spells mark text raw ∧ behind = raw ++ mark :: rest := ih htext
            refine ⟨'\\' :: (e ++ raw), .escape hb.2 he hraw, ?_⟩
            rw [hb.1, List.cons_append, List.append_assoc]
          next hb =>
          split at h
          · next hp =>
            obtain ⟨⟨text, _⟩, htext, heq⟩ := Option.map_eq_some_iff.mp h
            cases heq
            obtain ⟨raw, hraw, rfl⟩ := ih htext
            exact ⟨c :: raw, .plain hm hb hp hraw, rfl⟩
          · cases h

theorem keyAt_of_key? {cs rest : List Char} {key : String} (h : key? cs = some (key, rest)) :
    KeyAt key cs rest := by
  unfold key? at h
  split at h
  · obtain ⟨⟨text, _⟩, hread, heq⟩ := Option.map_eq_some_iff.mp h
    cases heq
    cases cs with
    | nil => cases hread
    | cons mark cs =>
        rw [readShort?] at hread
        split at hread
        · next hmark =>
          obtain ⟨raw, hraw, rfl⟩ := exists_of_short? hread
          exact .quoted hmark (by rwa [String.toList_ofList])
        · cases hread
  · next hne =>
    cases h
    have hkey := KeyAt.bare hne (fun c hc => List.mem_takeWhile_imp hc) (Text.head?_dropWhile isBare cs)
    rwa [List.takeWhile_append_dropWhile] at hkey

theorem key?_of_keyAt {cs rest : List Char} {key : String} (h : KeyAt key cs rest) :
    key? cs = some (key, rest) := by
  cases h with
  | @bare cs rest hne hb hend =>
      rw [key?, Text.takeWhile_append_end hb hend, Text.dropWhile_append_end hb hend]
      split
      · exact absurd rfl hne
      · rfl
  | @quoted mark key raw rest hmark h =>
      have hbare : (mark :: (raw ++ mark :: rest)).takeWhile isBare = [] := by
        rcases hmark with rfl | rfl <;> rfl
      simp only [key?, hbare, readShort?_of_spells hmark h, Option.map_some, String.ofList_toList]

/-! ### Paths -/

/-- A path at the start of a text: keys with dots between them, and any blanks around each key. -/
inductive PathAt : List String → List Char → List Char → Prop
  | last {key : String} {lead cs trail rest : List Char} (hlead : ∀ c ∈ lead, isSpace c = true)
      (htrail : ∀ c ∈ trail, isSpace c = true) (hkey : KeyAt key cs (trail ++ rest))
      (hend : ∀ c ∈ rest.head?, isSpace c = false ∧ c ≠ '.') : PathAt [key] (lead ++ cs) rest
  | dot {key : String} {keys : List String} {lead cs trail more rest : List Char}
      (hlead : ∀ c ∈ lead, isSpace c = true) (htrail : ∀ c ∈ trail, isSpace c = true)
      (hkey : KeyAt key cs (trail ++ '.' :: more)) (hkeys : PathAt keys more rest) :
      PathAt (key :: keys) (lead ++ cs) rest

/-- Where something stands behind blanks. -/
theorem exists_of_skipSpaces {cs rest : List Char} (h : skipSpaces cs = rest) :
    ∃ blanks, (∀ c ∈ blanks, isSpace c = true) ∧ cs = blanks ++ rest :=
  ⟨cs.takeWhile isSpace, fun _ hc => List.mem_takeWhile_imp hc,
    h ▸ (List.takeWhile_append_dropWhile).symm⟩

theorem skipSpaces_append {blanks rest : List Char} (hblanks : ∀ c ∈ blanks, isSpace c = true)
    (hrest : ∀ c ∈ rest.head?, isSpace c = false) : skipSpaces (blanks ++ rest) = rest :=
  Text.dropWhile_append_end hblanks hrest

/-- A key starts with a bare character or a mark. -/
theorem head_of_keyAt {cs rest : List Char} {key : String} (h : KeyAt key cs rest) :
    ∃ c tail, cs = c :: tail ∧ isSpace c = false ∧ c ≠ '[' ∧ c ≠ '#' ∧ c ≠ '\n' := by
  cases h with
  | @bare cs rest hne hb _ =>
      obtain ⟨c, tail, rfl⟩ := List.exists_cons_of_ne_nil hne
      exact ⟨c, tail ++ rest, rfl, isSpace_of_isBare (hb c List.mem_cons_self)⟩
  | quoted hmark _ =>
      refine ⟨_, _, rfl, ?_⟩
      rcases hmark with rfl | rfl <;> decide

theorem skipSpaces_of_keyAt {lead cs rest : List Char} {key : String}
    (hlead : ∀ c ∈ lead, isSpace c = true) (h : KeyAt key cs rest) : skipSpaces (lead ++ cs) = cs := by
  obtain ⟨c, tail, rfl, hs, -⟩ := head_of_keyAt h
  exact skipSpaces_append hlead fun d hd => Option.some.inj hd ▸ hs

theorem pathAt_of_path? {fuel : Nat} {cs rest : List Char} {path : List String}
    (h : path? fuel cs = some (path, rest)) : PathAt path cs rest ∧ path.length ≤ fuel := by
  induction fuel generalizing cs path with
  | zero => cases h
  | succ fuel ih =>
      simp only [path?, Option.bind_eq_bind, Option.bind_eq_some_iff] at h
      obtain ⟨⟨key, behind⟩, hkey, h⟩ := h
      obtain ⟨lead, hlead, heq⟩ := exists_of_skipSpaces (Eq.refl (skipSpaces cs))
      have hkey := keyAt_of_key? hkey
      rw [heq]
      split at h
      · next more hdot =>
        simp only [Option.bind_eq_some_iff, Option.pure_def, Option.some.injEq, Prod.mk.injEq] at h
        obtain ⟨⟨keys, rest⟩, hkeys, rfl, rfl⟩ := h
        obtain ⟨trail, htrail, rfl⟩ := exists_of_skipSpaces hdot
        obtain ⟨hpath, hlength⟩ := ih hkeys
        exact ⟨.dot hlead htrail hkey hpath, Nat.succ_le_succ hlength⟩
      · next hdot =>
        cases h
        obtain ⟨trail, htrail, hbehind⟩ := exists_of_skipSpaces (Eq.refl (skipSpaces behind))
        rw [hbehind] at hkey
        refine ⟨.last hlead htrail hkey fun c hc => ⟨Text.head?_dropWhile isSpace behind c hc, ?_⟩,
          Nat.succ_le_succ (Nat.zero_le fuel)⟩
        rintro rfl
        obtain ⟨tail, htail⟩ := List.head?_eq_some_iff.mp hc
        exact hdot tail htail

theorem path?_of_pathAt {cs rest : List Char} {path : List String} (h : PathAt path cs rest) {fuel : Nat}
    (hfuel : path.length ≤ fuel) : path? fuel cs = some (path, rest) := by
  induction h generalizing fuel with
  | @last key lead cs trail rest hlead htrail hkey hend =>
      obtain ⟨fuel, rfl⟩ : ∃ n, fuel = n + 1 := ⟨fuel - 1, by simp at hfuel; omega⟩
      have hskip := skipSpaces_append htrail fun c hc => (hend c hc).1
      simp only [path?, skipSpaces_of_keyAt hlead hkey, key?_of_keyAt hkey, Option.bind_eq_bind,
        Option.bind_some, hskip]
      split
      · exact absurd rfl (hend '.' rfl).2
      · rfl
  | @dot key keys lead cs trail more rest hlead htrail hkey hkeys ih =>
      obtain ⟨fuel, rfl⟩ : ∃ n, fuel = n + 1 := ⟨fuel - 1, by simp at hfuel; omega⟩
      have hskip : skipSpaces (trail ++ '.' :: more) = '.' :: more :=
        skipSpaces_append htrail fun c hc => Option.some.inj hc ▸ rfl
      simp only [path?, skipSpaces_of_keyAt hlead hkey, key?_of_keyAt hkey, Option.bind_eq_bind,
        Option.bind_some, hskip, ih (Nat.le_of_succ_le_succ hfuel), Option.pure_def]

/-- Blanks before a path have no part in it. -/
theorem PathAt.skip {path : List String} {cs rest : List Char} (h : PathAt path cs rest) :
    PathAt path (skipSpaces cs) rest ∧
      ∃ c tail, skipSpaces cs = c :: tail ∧ isSpace c = false ∧ c ≠ '[' ∧ c ≠ '#' ∧ c ≠ '\n' := by
  cases h with
  | @last key lead cs trail rest hlead htrail hkey hend =>
      rw [skipSpaces_of_keyAt hlead hkey]
      exact ⟨.last (List.forall_mem_nil _) htrail hkey hend, head_of_keyAt hkey⟩
  | @dot key keys lead cs trail more rest hlead htrail hkey hkeys =>
      rw [skipSpaces_of_keyAt hlead hkey]
      exact ⟨.dot (List.forall_mem_nil _) htrail hkey hkeys, head_of_keyAt hkey⟩

/-! ### Ends of lines -/

/-- The end of a line or of the whole text. -/
inductive LineEnd : List Char → List Char → Prop
  | newline (rest : List Char) : LineEnd ('\n' :: rest) rest
  | last : LineEnd [] []

/-- The rest of a line, which holds blanks and perhaps a comment. -/
inductive EndsLine (inComment : Char → Bool) : List Char → List Char → Prop
  | plain {blanks cs rest : List Char} (hblanks : ∀ c ∈ blanks, isSpace c = true) (hend : LineEnd cs rest) :
      EndsLine inComment (blanks ++ cs) rest
  | comment {blanks text cs rest : List Char} (hblanks : ∀ c ∈ blanks, isSpace c = true)
      (htext : ∀ c ∈ text, inComment c = true) (hend : LineEnd cs rest) :
      EndsLine inComment (blanks ++ '#' :: (text ++ cs)) rest

/-- What is left of a line past its blanks: what it ends in, a comment before it or not. -/
theorem lineEnd_of_endLine? {inComment : Char → Bool} {cs rest : List Char}
    (h : Dialect.endLine? inComment cs = some rest) :
    ∃ tail, LineEnd tail rest ∧
      (skipSpaces cs = tail ∨
        ∃ text, skipSpaces cs = '#' :: text ∧ text.dropWhile inComment = tail) := by
  simp only [Dialect.endLine?] at h
  split at h
  · next hstart =>
    cases h
    refine ⟨[], .last, ?_⟩
    split at hstart
    · next text hhash => exact .inr ⟨text, hhash, hstart⟩
    · exact .inl hstart
  · next rest' hstart =>
    cases h
    refine ⟨'\n' :: rest, .newline rest, ?_⟩
    split at hstart
    · next text hhash => exact .inr ⟨text, hhash, hstart⟩
    · exact .inl hstart
  · cases h

theorem endsLine_of_endLine? {inComment : Char → Bool} {cs rest : List Char}
    (h : Dialect.endLine? inComment cs = some rest) : EndsLine inComment cs rest := by
  obtain ⟨blanks, hblanks, heq⟩ := exists_of_skipSpaces (Eq.refl (skipSpaces cs))
  rw [heq]
  obtain ⟨tail, hline, hplain | ⟨text, hhash, hdrop⟩⟩ := lineEnd_of_endLine? h
  · exact .plain hblanks (hplain ▸ hline)
  · have htext : ∀ c ∈ text.takeWhile inComment, inComment c = true := fun c hc =>
      List.mem_takeWhile_imp hc
    have hcomment := EndsLine.comment hblanks htext hline
    rwa [← hdrop, List.takeWhile_append_dropWhile, ← hhash] at hcomment

theorem LineEnd.head {cs rest : List Char} (h : LineEnd cs rest) : ∀ c ∈ cs.head?, c = '\n' := by
  cases h with
  | newline => rintro c ⟨⟩; rfl
  | last => exact nofun

theorem endLine?_of_endsLine {inComment : Char → Bool} (hn : inComment '\n' = false) {cs rest : List Char}
    (h : EndsLine inComment cs rest) : Dialect.endLine? inComment cs = some rest := by
  cases h with
  | @plain blanks cs rest hblanks hend =>
      have hskip : skipSpaces (blanks ++ cs) = cs :=
        skipSpaces_append hblanks fun c hc => hend.head c hc ▸ rfl
      rw [Dialect.endLine?, hskip]
      cases hend with
      | newline | last => rfl
  | @comment blanks text cs rest hblanks htext hend =>
      have hskip : skipSpaces (blanks ++ '#' :: (text ++ cs)) = '#' :: (text ++ cs) :=
        skipSpaces_append hblanks fun c hc => Option.some.inj hc ▸ rfl
      have hdrop : (text ++ cs).dropWhile inComment = cs :=
        Text.dropWhile_append_end htext fun c hc => hend.head c hc ▸ hn
      cases hend with
      | newline | last => simp only [Dialect.endLine?, hskip, hdrop]

/-! ### Lines -/

namespace Exact

/-- How many keys a path may have, and how deep values may nest. -/
def maxNesting : Nat := 79

theorem limitFor_dialect (length : Nat) : dialect.limitFor length = maxNesting := rfl

/-- A line at the start of a text: a path in one or in two pairs of brackets, a path with an equals sign and
a value, or nothing but a comment.  Blanks and a comment may stand behind each. -/
inductive LineAt : Dialect.Line → List Char → List Char → Prop
  | table {path : List String} {cs behind rest : List Char} (hlimit : path.length ≤ maxNesting)
      (hpath : PathAt path cs (']' :: behind)) (hend : EndsLine inComment behind rest) :
      LineAt (.table path) ('[' :: cs) rest
  | element {path : List String} {cs behind rest : List Char} (hlimit : path.length ≤ maxNesting)
      (hpath : PathAt path cs (']' :: ']' :: behind)) (hend : EndsLine inComment behind rest) :
      LineAt (.element path) ('[' :: '[' :: cs) rest
  | field {path : List String} {v : Value} {cs space start behind rest : List Char}
      (hlimit : path.length ≤ maxNesting) (hpath : PathAt path cs ('=' :: (space ++ start)))
      (hspace : ∀ c ∈ space, isSpace c = true) (hvalue : dialect.value? maxNesting start = some (v, behind))
      (hend : EndsLine inComment behind rest) : LineAt (.field (path, v)) cs rest
  | blank {cs rest : List Char} (hstart : cs.head? = some '#' ∨ cs.head? = some '\n')
      (hend : EndsLine inComment cs rest) : LineAt .blank cs rest

/-- The lines of a whole text, with any blanks before each. -/
inductive Layout : List Dialect.Line → List Char → Prop
  | nil {blanks : List Char} (hblanks : ∀ c ∈ blanks, isSpace c = true) : Layout [] blanks
  | cons {line : Dialect.Line} {lines : List Dialect.Line} {lead cs rest : List Char}
      (hlead : ∀ c ∈ lead, isSpace c = true) (hline : LineAt line cs rest) (hlines : Layout lines rest) :
      Layout (line :: lines) (lead ++ cs)

theorem exists_of_field? {cs behind : List Char} {path : List String} {v : Value}
    (h : dialect.field? (dialect.value? maxNesting) cs = some ((path, v), behind)) :
    ∃ space start, (∀ c ∈ space, isSpace c = true) ∧ PathAt path cs ('=' :: (space ++ start)) ∧
      path.length ≤ maxNesting ∧ dialect.value? maxNesting start = some (v, behind) := by
  simp only [Dialect.field?, limitFor_dialect, Option.bind_eq_bind, Option.bind_eq_some_iff] at h
  obtain ⟨⟨path, after⟩, hpath, h⟩ := h
  obtain ⟨hpath, hlimit⟩ := pathAt_of_path? hpath
  split at h
  · next tail hequals =>
    simp only [Option.bind_eq_some_iff, Option.pure_def, Option.some.injEq, Prod.mk.injEq] at h
    obtain ⟨⟨v, behind⟩, hvalue, ⟨rfl, rfl⟩, rfl⟩ := h
    obtain ⟨space, hspace, heq⟩ := exists_of_skipSpaces (Eq.refl (skipSpaces tail))
    exact ⟨space, skipSpaces tail, hspace, heq ▸ hequals ▸ hpath, hlimit, hvalue⟩
  · cases h

theorem lineAt_of_line? {cs rest : List Char} {line : Dialect.Line} (hne : cs ≠ [])
    (h : dialect.line? cs = some (line, rest)) : LineAt line cs rest := by
  unfold Dialect.line? at h
  simp only [limitFor_dialect, Option.bind_eq_bind] at h
  split at h
  · simp only [Option.bind_eq_some_iff] at h
    obtain ⟨⟨path, behind⟩, hpath, h⟩ := h
    obtain ⟨hpath, hlimit⟩ := pathAt_of_path? hpath
    split at h
    · next hclose =>
      simp only [Option.bind_eq_some_iff, Option.pure_def, Option.some.injEq, Prod.mk.injEq] at h
      obtain ⟨_, hend, rfl, rfl⟩ := h
      exact .element hlimit (hclose ▸ hpath) (endsLine_of_endLine? hend)
    · cases h
  · simp only [Option.bind_eq_some_iff] at h
    obtain ⟨⟨path, behind⟩, hpath, h⟩ := h
    obtain ⟨hpath, hlimit⟩ := pathAt_of_path? hpath
    split at h
    · next hclose =>
      simp only [Option.bind_eq_some_iff, Option.pure_def, Option.some.injEq, Prod.mk.injEq] at h
      obtain ⟨_, hend, rfl, rfl⟩ := h
      exact .table hlimit (hclose ▸ hpath) (endsLine_of_endLine? hend)
    · cases h
  · simp only [Option.bind_eq_some_iff, Option.pure_def, Option.some.injEq, Prod.mk.injEq] at h
    obtain ⟨_, hend, rfl, rfl⟩ := h
    exact .blank (.inl rfl) (endsLine_of_endLine? hend)
  · simp only [Option.bind_eq_some_iff, Option.pure_def, Option.some.injEq, Prod.mk.injEq] at h
    obtain ⟨_, hend, rfl, rfl⟩ := h
    exact .blank (.inr rfl) (endsLine_of_endLine? hend)
  · exact absurd rfl hne
  · simp only [Option.bind_eq_some_iff, Option.pure_def, Option.some.injEq, Prod.mk.injEq] at h
    obtain ⟨⟨f, behind⟩, hf, _, hend, rfl, rfl⟩ := h
    obtain ⟨path, v⟩ := f
    obtain ⟨space, start, hspace, hpath, hlimit, hvalue⟩ := exists_of_field? hf
    exact .field hlimit hpath hspace hvalue (endsLine_of_endLine? hend)

theorem layout_of_lines? {fuel : Nat} {cs : List Char} {lines : List Dialect.Line}
    (h : dialect.lines? fuel cs = some lines) : Layout lines cs := by
  induction fuel generalizing cs lines with
  | zero => cases h
  | succ fuel ih =>
      obtain ⟨lead, hlead, heq⟩ := exists_of_skipSpaces (Eq.refl (skipSpaces cs))
      rw [Dialect.lines?] at h
      split at h
      · next hnil =>
        cases h
        rw [hnil, List.append_nil] at heq
        exact heq ▸ .nil hlead
      · next hne =>
        simp only [Option.bind_eq_bind, Option.bind_eq_some_iff, Option.pure_def, Option.some.injEq] at h
        obtain ⟨⟨line, rest⟩, hline, lines, hlines, rfl⟩ := h
        rw [heq]
        exact .cons hlead (lineAt_of_line? hne hline) (ih hlines)

/-- A value does not start with a blank. -/
theorem skipSpaces_of_value? {depth : Nat} {cs rest : List Char} {v : Value}
    (h : dialect.value? depth cs = some (v, rest)) : skipSpaces cs = cs := by
  cases cs with
  | nil => rfl
  | cons c cs =>
      refine skipSpaces_cons (Bool.eq_false_iff.mpr fun hs => ?_) cs
      simp only [isSpace, Bool.or_eq_true, beq_iff_eq] at hs
      have hleaf : dialect.leaf? (c :: cs) = none := leaf?_of_head (by rcases hs with rfl | rfl <;> simp) cs
      have hvalue : dialect.value? depth (c :: cs) = dialect.leaf? (c :: cs) := by
        cases depth with
        | zero => rfl
        | succ depth => rcases hs with rfl | rfl <;> rfl
      rw [hvalue, hleaf] at h
      cases h

/-- A path does not start like a header, a comment or a line end. -/
theorem head_of_pathAt {path : List String} {c : Char} {cs rest : List Char} (h : PathAt path (c :: cs) rest)
    (hs : isSpace c = false) : c ≠ '[' ∧ c ≠ '#' ∧ c ≠ '\n' := by
  obtain ⟨-, d, tail, heq, -, hd⟩ := h.skip
  rw [skipSpaces_cons hs] at heq
  cases heq
  exact hd

/-- A line is read up to its end. -/
theorem line?_of_lineAt {line : Dialect.Line} {cs rest : List Char} (h : LineAt line cs rest) :
    skipSpaces cs ≠ [] ∧ dialect.line? (skipSpaces cs) = some (line, rest) := by
  cases h with
  | @table path cs behind rest hlimit hpath hend =>
      refine ⟨List.cons_ne_nil _ _, ?_⟩
      rw [skipSpaces_cons rfl]
      cases cs with
      | nil => cases path?_of_pathAt hpath hlimit
      | cons c cs =>
          have hopen : c ≠ '[' := by
            rintro rfl
            exact (head_of_pathAt hpath rfl).1 rfl
          have hread : Dialect.endLine? dialect.inHeaderComment behind = some rest :=
            endLine?_of_endsLine rfl hend
          rw [Dialect.line?_table (d := dialect) hopen (path?_of_pathAt hpath hlimit), hread]
          rfl
  | @element path cs behind rest hlimit hpath hend =>
      refine ⟨List.cons_ne_nil _ _, ?_⟩
      have hread : Dialect.endLine? dialect.inHeaderComment behind = some rest :=
        endLine?_of_endsLine rfl hend
      rw [skipSpaces_cons rfl]
      simp only [Dialect.line?, limitFor_dialect, path?_of_pathAt hpath hlimit, Option.bind_eq_bind,
        Option.bind_some, hread, Option.pure_def]
  | @field path v cs space start behind rest hlimit hpath hspace hvalue hend =>
      obtain ⟨hpath, c, tail, heq, -, hopen, hhash, hnl⟩ := hpath.skip
      rw [heq] at hpath ⊢
      refine ⟨List.cons_ne_nil _ _, ?_⟩
      have hf : dialect.field? (dialect.value? maxNesting) (c :: tail) = some ((path, v), behind) := by
        have hskip : skipSpaces (space ++ start) = start := by
          rw [skipSpaces, List.dropWhile_append_of_pos hspace]
          exact skipSpaces_of_value? hvalue
        simp only [Dialect.field?, limitFor_dialect, path?_of_pathAt hpath hlimit, Option.bind_eq_bind,
          Option.bind_some, hskip, hvalue, Option.pure_def]
      have hread : Dialect.endLine? dialect.inComment behind = some rest :=
        endLine?_of_endsLine rfl hend
      rw [Dialect.line?_field hopen hhash hnl hf, hread]
      rfl
  | blank hstart hend =>
      have hread : Dialect.endLine? dialect.inComment cs = some rest := endLine?_of_endsLine rfl hend
      rcases hstart with h | h
      · obtain ⟨tail, rfl⟩ := List.head?_eq_some_iff.mp h
        refine ⟨List.cons_ne_nil _ _, ?_⟩
        rw [skipSpaces_cons rfl]
        simp only [Dialect.line?, hread, Option.bind_eq_bind, Option.bind_some, Option.pure_def]
      · obtain ⟨tail, rfl⟩ := List.head?_eq_some_iff.mp h
        refine ⟨List.cons_ne_nil _ _, ?_⟩
        rw [skipSpaces_cons rfl]
        simp only [Dialect.line?, hread, Option.bind_eq_bind, Option.bind_some, Option.pure_def]

/-- Lines are read one behind the other. -/
theorem Layout.first {lines : List Dialect.Line} {cs : List Char} (h : Layout lines cs) :
    (lines = [] ∧ skipSpaces cs = []) ∨
      ∃ line lines' rest, lines = line :: lines' ∧ skipSpaces cs ≠ [] ∧
        dialect.line? (skipSpaces cs) = some (line, rest) ∧ Layout lines' rest := by
  cases h with
  | nil hblanks =>
      have hskip : skipSpaces (cs ++ []) = [] := skipSpaces_append hblanks nofun
      rw [List.append_nil] at hskip
      exact .inl ⟨rfl, hskip⟩
  | @cons line lines lead cs rest hlead hline hlines =>
      have hskip : skipSpaces (lead ++ cs) = skipSpaces cs := List.dropWhile_append_of_pos hlead
      obtain ⟨hne, hread⟩ := line?_of_lineAt hline
      exact .inr ⟨line, lines, rest, rfl, hskip ▸ hne, hskip ▸ hread, hlines⟩

/-- **A text has one layout.** -/
theorem Layout.unique {lines lines' : List Dialect.Line} {cs : List Char} (h : Layout lines cs)
    (h' : Layout lines' cs) : lines = lines' := by
  induction lines generalizing cs lines' with
  | nil =>
      rcases h.first with ⟨-, hnil⟩ | ⟨_, _, _, heq, -⟩
      · rcases h'.first with ⟨rfl, -⟩ | ⟨_, _, _, -, hne, -⟩
        · rfl
        · exact absurd hnil hne
      · cases heq
  | cons line lines ih =>
      rcases h.first with ⟨heq, -⟩ | ⟨line, lines, rest, heq, hne, hread, hrest⟩
      · cases heq
      · cases heq
        rcases h'.first with ⟨-, hnil⟩ | ⟨line', lines', rest', rfl, -, hread', hrest'⟩
        · exact absurd hnil hne
        · cases hread.symm.trans hread'
          rw [ih hrest hrest']

end Exact

end PrefixMatch.Toml
