import PrefixMatch.Proofs.Config.Precedence
import PrefixMatch.Proofs.Config.Validity
import PrefixMatch.Proofs.Number.Written

/-!
# Config — texts from the environment

The text of a variable is read as a truth value or as a number first, and where a text is asked for, that value
is written again.  So a text arrives as it is just when it spells what it is read as in the way that this is
written (`Environment.Keeps`).

* `ConfigLoader.load_path_variable`: a path that a variable gives is always taken, but it may arrive in another
  spelling; one with a directory, and one that a file gives, arrives as it is.
* `ConfigLoader.path_variable_respelled`: the zeros before a number are lost.
-/

namespace PrefixMatch

/-! ### Texts that arrive as they are -/

namespace Environment

/-- The lower-case form of a text. -/
def lowered (s : String) : String :=
  String.ofList (Text.lower s.toList)

/-- The word for a truth value. -/
def wordOf (b : Bool) : String :=
  if b then "true" else "false"

/-- What a text is read as: as a truth value before an integer, and as an integer before another number. -/
inductive ReadsAs (s : String) : LayerValue → Prop where
  | word (b : Bool) (h : lowered s = wordOf b) : ReadsAs s (.bool b)
  | int (n : Int) (hword : ∀ b, lowered s ≠ wordOf b) (h : Number.readInt64? s.toList = some n) :
      ReadsAs s (.int n)
  | float (d : Double) (hword : ∀ b, lowered s ≠ wordOf b) (hint : Number.readInt64? s.toList = none)
      (h : Number.readDouble? s.toList = some d) : ReadsAs s (.float d)
  | text (hword : ∀ b, lowered s ≠ wordOf b) (hint : Number.readInt64? s.toList = none)
      (hfloat : Number.readDouble? s.toList = none) : ReadsAs s (.text s)

/-- A text that spells what it is read as in the way that this is written: a truth value in lower case, an
integer of 64 bits without a plus sign or a zero before it, and any other number in its own decimal form. -/
structure Keeps (s : String) : Prop where
  word : ∀ b, lowered s = wordOf b → wordOf b = s
  int : ∀ n, Number.readInt64? s.toList = some n → Number.IsPlain s.toList
  float : ∀ d, Number.readInt64? s.toList = none → Number.readDouble? s.toList = some d → d.text = s

variable {s : String}

theorem wordOf_injective {b b' : Bool} (h : wordOf b = wordOf b') : b = b' := by
  cases b <;> cases b' <;> first | rfl | exact absurd h (by decide)

/-- A variable has the value that its text is read as. -/
theorem readsAs_value (s : String) : ReadsAs s (value s) := by
  rw [value]
  split
  · next h => exact .word true h
  split
  · next h => exact .word false h
  next htrue hfalse =>
  have hword : ∀ b, lowered s ≠ wordOf b := fun b => by cases b <;> assumption
  split
  · next n h => exact .int n hword h
  next hint =>
  split
  · next d h => exact .float d hword hint h
  · next h => exact .text hword hint h

/-- **As a text, a value is that of its variable just when the text spells it in the way it is written.** -/
theorem text?_value (s : String) :
    ∃ text, (value s).text? = some text ∧ (s ≠ "" → text ≠ "") ∧ (text = s ↔ Keeps s) := by
  have hread := readsAs_value s
  generalize value s = v at hread
  cases hread with
  | word b h =>
      refine ⟨wordOf b, rfl, fun _ => by cases b <;> decide, fun heq => ?_, fun hs => hs.word b h⟩
      subst heq
      refine ⟨fun b' hb' => ?_, fun n hn => ?_, fun d _ hd => ?_⟩
      · rw [wordOf_injective (hb'.symm.trans h)]
      · cases b <;> cases hn
      · cases b <;> cases hd
  | int n hword h =>
      have hplain := Number.toString_eq_iff h
      rw [String.toList_inj] at hplain
      refine ⟨toString n, rfl, fun _ => Number.toString_ne_empty n, fun heq => ?_,
        fun hs => hplain.mpr (hs.int n h)⟩
      refine ⟨fun b hb => absurd hb (hword b), fun _ _ => hplain.mp heq, fun d hnone => ?_⟩
      · rw [h] at hnone
        cases hnone
  | float d hword hint h =>
      refine ⟨d.text, rfl, fun _ => d.text_ne_empty, fun heq => ?_, fun hs => hs.float d hint h⟩
      refine ⟨fun b hb => absurd hb (hword b), fun n hn => ?_, fun d' _ hd' => ?_⟩
      · rw [hint] at hn
        cases hn
      · rwa [Option.some.inj (hd'.symm.trans h)]
  | text hword hint hfloat =>
      refine ⟨s, rfl, id, fun _ => ?_, fun _ => rfl⟩
      refine ⟨fun b hb => absurd hb (hword b), fun n hn => ?_, fun d _ hd => ?_⟩
      · rw [hint] at hn
        cases hn
      · rw [hfloat] at hd
        cases hd

/-- A text with a slash is read as it is. -/
theorem keeps_of_slash (h : '/' ∈ s.toList) : Keeps s := by
  have hnumber : Text.EndsNumber '/' := ⟨by decide, by decide, by decide, by decide⟩
  refine ⟨fun b hb => ?_, fun n hn => ?_, fun d _ hd => ?_⟩
  · have hlower : '/' ∈ Text.lower s.toList := Text.mem_lower (by decide) (by decide) h
    rw [← String.toList_ofList (l := Text.lower s.toList), ← lowered, hb] at hlower
    exact absurd hlower (by cases b <;> decide)
  · rw [Number.readInt64?_of_mem hnumber h] at hn
    cases hn
  · rw [Number.readDouble?_of_mem hnumber (by decide) (by decide) h] at hd
    cases hd

end Environment

/-! ### A path from a variable -/

namespace Setting

variable {start : String}

/-- A name is that of one setting at most. -/
theorem NamedBy.unique {s t : Setting} {name : String} (hs : s.NamedBy start name) (ht : t.NamedBy start name) :
    s = t :=
  keyPath_injective (Option.some.inj ((key?_of_namedBy hs).symm.trans (key?_of_namedBy ht)))

theorem namedBy_append (s : Setting) (start : String) {rest : String} {suffix : List Char}
    (hrest : rest.toList = '_' :: '_' :: suffix) (h : Text.lower suffix = Text.lower s.suffix.toList) :
    s.NamedBy start (start ++ rest) := by
  rw [NamedBy, String.toList_append, hrest, List.append_assoc, List.cons_append, List.cons_append,
    Text.lower_append_bar, Text.lower_append_bar, Text.lower_bar_cons, Text.lower_bar_cons, h]
  rfl

end Setting

namespace Environment

variable {start : String} {env : Environment} {given : List (String × String)}

/-- Variables that are named after different settings, among others that do not count. -/
theorem NamesSettings.of_perm (hperm : (env.filter fun v => Counts start v.1).Perm given)
    (hnamed : ∀ v ∈ given, ∃ s : Setting, s.NamedBy start v.1)
    (hsingle : given.Pairwise fun u v => ∀ s : Setting, s.NamedBy start u.1 → ¬ s.NamedBy start v.1) :
    NamesSettings start env where
  named v hv hcounts :=
    hnamed v (hperm.mem_iff.mp (List.mem_filter.mpr ⟨hv, decide_eq_true hcounts⟩))
  single := by
    have hsymm : ∀ {u v : String × String}, (∀ s : Setting, s.NamedBy start u.1 → ¬ s.NamedBy start v.1) →
        ∀ s : Setting, s.NamedBy start v.1 → ¬ s.NamedBy start u.1 := fun h s hv hu => h s hu hv
    have hfilter := (hperm.pairwise_iff hsymm).mpr hsingle
    refine (List.pairwise_filter.mp hfilter).imp fun {u v} h s hu hv => ?_
    exact h (decide_eq_true hu.counts) (decide_eq_true hv.counts) s hu hv

/-- The text of a setting is that of the given variable that is named after it. -/
theorem envText?_of_perm (henv : NamesSettings start env)
    (hperm : (env.filter fun v => Counts start v.1).Perm given) (s : Setting) (text : String) :
    s.envText? start env = some text ↔ ∃ name, s.NamedBy start name ∧ (name, text) ∈ given := by
  rw [s.envText?_eq_some_iff henv]
  refine exists_congr fun name => and_congr_right fun hname => ?_
  rw [← hperm.mem_iff, List.mem_filter]
  exact (and_iff_left (decide_eq_true hname.counts)).symm

end Environment

namespace ConfigLoader

variable {lib : Libraries} {start : String} {files : FileTree} {env : Environment}

/-- The configuration that has a path of a vocabulary of lines, and the defaults for the rest. -/
def pathConfig (path : String) : Config :=
  { vocabulary := { path := some path, format := some .lines } }

/-- The layer of a file that gives a path of a vocabulary of lines. -/
def pathLayer (path : String) : Layer :=
  [("vocabulary", .table [("path", .text path), ("format", .text "lines")])]

theorem validate_pathConfig {path : String} (h : path ≠ "") : (pathConfig path).validate = .ok () := by
  rw [Config.validate_eq_ok_iff, VocabularySettings.validate_eq_ok_iff]
  refine ⟨fun p hp => ?_, rfl⟩
  cases hp
  exact ⟨h, rfl⟩

/-- A value that has a text is not missing. -/
theorem optional?_text? {v : LayerValue} {text : String} (h : v.text? = some text) :
    LayerValue.optional? LayerValue.text? v = some (some text) := by
  cases v with
  | nil => cases h
  | _ => exact congrArg (Option.map some) h

/-- The settings of that configuration, from a source that has a path and the format alone. -/
theorem takes_pathConfig {source? : Setting → Option LayerValue} {v : LayerValue} {path : String}
    (htext : v.text? = some path) (hpath : source? .path = some v)
    (hformat : source? .format = some (.text "lines"))
    (hrest : ∀ s, s ≠ .path → s ≠ .format → source? s = none) (s : Setting) :
    s.Takes (pathConfig path) (source? s) := by
  by_cases hs : s = .path
  · subst hs
    rw [hpath]
    exact optional?_text? htext
  by_cases hs' : s = .format
  · subst hs'
    rw [hformat]
    rfl
  rw [hrest s hs hs']
  cases s <;> first | rfl | contradiction

/-- The path that the variables give, and the format beside it. -/
theorem load_of_variables {s path : String} (hne : path ≠ "")
    (hperm : (env.filter fun v => Environment.Counts start v.1).Perm
      [(start ++ "__VOCABULARY__PATH", s), (start ++ "__VOCABULARY__FORMAT", "lines")])
    (htext : (Environment.value s).text? = some path) :
    (({ path := none, envName := start } : ConfigLoader).load lib files env).value = .ok (pathConfig path) := by
  have hpath : Setting.path.NamedBy start (start ++ "__VOCABULARY__PATH") :=
    Setting.namedBy_append _ _ rfl (by decide)
  have hformat : Setting.format.NamedBy start (start ++ "__VOCABULARY__FORMAT") :=
    Setting.namedBy_append _ _ rfl (by decide)
  have henv : Environment.NamesSettings start env := by
    refine .of_perm hperm ?_ ?_
    · rw [List.forall_mem_cons, List.forall_mem_singleton]
      exact ⟨⟨.path, hpath⟩, ⟨.format, hformat⟩⟩
    · refine List.pairwise_pair.mpr fun s hs hs' => ?_
      cases (hs.unique hpath).symm.trans (hs'.unique hformat)
  have hsome := Environment.envText?_of_perm henv hperm
  rw [load_eq_ok_iff_takes_text rfl henv]
  refine ⟨takes_pathConfig htext ?path ?format fun t ht ht' => ?rest, validate_pathConfig hne⟩
  case path => rw [(hsome .path s).mpr ⟨_, hpath, List.mem_cons_self⟩, Option.map_some]
  case format =>
    rw [(hsome .format "lines").mpr ⟨_, hformat, List.mem_cons_of_mem _ List.mem_cons_self⟩]
    rfl
  case rest =>
    rw [Option.map_eq_none_iff, Option.eq_none_iff_forall_ne_some]
    intro text hvalue
    obtain ⟨name, hname, hmem⟩ := (hsome t text).mp hvalue
    rw [List.mem_cons, List.mem_singleton] at hmem
    rcases hmem with heq | heq
    · cases heq
      exact ht (hname.unique hpath)
    · cases heq
      exact ht' (hname.unique hformat)

/-- A file gives the path as it stands there. -/
theorem load_of_pathLayer {l : ConfigLoader} {path s : String} (hs : s ≠ "") (hpath : l.path = some path)
    (hfile : fileLayer lib files path = .ok (pathLayer s)) :
    (l.load lib files []).value = .ok (pathConfig s) := by
  have hnone : ∀ v ∈ ([] : Environment), ¬ Environment.Counts l.envName v.1 := nofun
  have htables : (pathLayer s).HasTables := by
    refine ⟨fun t v hv => ?_, fun t v hv => ?_⟩
    · cases t <;> cases hv
      all_goals exact ⟨_, rfl⟩
    · cases t <;> cases hv
      all_goals trivial
  have hapart : (pathLayer s).KeepsApart := by
    intro key hkey t hname
    obtain rfl : key = "vocabulary" := List.mem_singleton.mp hkey
    exact hname
  have hfits : (pathLayer s).Fits lib.maxItems :=
    Layer.fits_of_bare (by decide : ∀ key ∈ ["vocabulary"], (KeyPath.ofKey key).steps = [])
  rw [load_eq_ok_iff_takes hpath hfile htables hapart hfits (.of_none hnone)]
  refine ⟨takes_pathConfig (v := .text s) rfl rfl rfl fun t ht ht' => ?_, validate_pathConfig hs⟩
  cases t <;> first | rfl | contradiction

/-- **A path that a variable gives may arrive in another spelling.**  It is always taken, and it arrives as it
is just when it spells what it is read as in the way that this is written, so with a directory it does.  A file
gives every path as it stands there. -/
theorem load_path_variable (start : String) (lib : Libraries) (files : FileTree) {env : Environment}
    {s : String} (hs : s ≠ "")
    (hperm : (env.filter fun v => Environment.Counts start v.1).Perm
      [(start ++ "__VOCABULARY__PATH", s), (start ++ "__VOCABULARY__FORMAT", "lines")]) :
    (∃ text, (({ path := none, envName := start } : ConfigLoader).load lib files env).value =
        .ok (pathConfig text) ∧
      (Environment.value s).text? = some text ∧ (text = s ↔ Environment.Keeps s) ∧
      ('/' ∈ s.toList → text = s)) ∧
    ∀ {l : ConfigLoader} {path : String}, l.path = some path →
      fileLayer lib files path = .ok (pathLayer s) → (l.load lib files []).value = .ok (pathConfig s) := by
  obtain ⟨text, htext, hne, hkeeps⟩ := Environment.text?_value s
  refine ⟨⟨text, load_of_variables (hne hs) hperm htext, htext, hkeeps, fun hslash => ?_⟩,
    load_of_pathLayer hs⟩
  exact hkeeps.mpr (Environment.keeps_of_slash hslash)

/-- A path that spells a number with zeros before it, among other variables. -/
def zerosEnv : Environment :=
  [("NIIHAU__VOCABULARY__FORMAT", "lines"), ("HOME", "/"), ("NIIHAU__VOCABULARY__PATH", "007")]

/-- The same path in a file. -/
def zerosText : String :=
  "\x7b\"vocabulary\": \x7b\"path\": \"007\", \"format\": \"lines\"\x7d\x7d"

/-- The zeros are lost on the way from a variable, and stay on the way from a file. -/
theorem load_path_variable_zeros :
    ("007" : String) ≠ "" ∧
    (zerosEnv.filter fun v => Environment.Counts "NIIHAU" v.1).Perm
      [("NIIHAU" ++ "__VOCABULARY__PATH", "007"), ("NIIHAU" ++ "__VOCABULARY__FORMAT", "lines")] ∧
    (({ path := none } : ConfigLoader).load .plain (singleFile "c.json" zerosText) zerosEnv).value =
      .ok (pathConfig "7") ∧
    ¬ Environment.Keeps "007" ∧
    (({ path := some "/c.json" } : ConfigLoader).load .plain (singleFile "c.json" zerosText) []).value =
      .ok (pathConfig "007") := by
  have hs : ("007" : String) ≠ "" := by decide
  have hperm : (zerosEnv.filter fun v => Environment.Counts "NIIHAU" v.1).Perm
      [("NIIHAU" ++ "__VOCABULARY__PATH", "007"), ("NIIHAU" ++ "__VOCABULARY__FORMAT", "lines")] := by decide
  obtain ⟨⟨text, hload, htext, hkeeps, -⟩, hfile⟩ :=
    load_path_variable "NIIHAU" .plain (singleFile "c.json" zerosText) hs hperm
  have hseven : (Environment.value "007").text? = some "7" := by cbv
  cases hseven.symm.trans htext
  have hlayer : fileLayer .plain (singleFile "c.json" zerosText) "/c.json" = .ok (pathLayer "007") :=
    fileLayer_json (by cbv)
  exact ⟨hs, hperm, hload, mt hkeeps.mpr (by decide), hfile rfl hlayer⟩

/-- A path that a variable gives need not arrive as it is. -/
theorem path_variable_respelled :
    ¬ ∀ (start s : String) (lib : Libraries) (files : FileTree), s ≠ "" → '\x00' ∉ s.toList →
      ∃ c, (({ path := none, envName := start } : ConfigLoader).load lib files
        [(start ++ "__VOCABULARY__PATH", s), (start ++ "__VOCABULARY__FORMAT", "lines")]).value = .ok c ∧
        c.vocabulary.path = some s := by
  intro h
  obtain ⟨c, hload, hpath⟩ := h "NIIHAU" "007" .plain {} (by decide) (by decide)
  have hperm : (([("NIIHAU" ++ "__VOCABULARY__PATH", "007"), ("NIIHAU" ++ "__VOCABULARY__FORMAT", "lines")] :
      Environment).filter fun v => Environment.Counts "NIIHAU" v.1).Perm
        [("NIIHAU" ++ "__VOCABULARY__PATH", "007"), ("NIIHAU" ++ "__VOCABULARY__FORMAT", "lines")] := by decide
  have hseven : (Environment.value "007").text? = some "7" := by cbv
  cases (load_of_variables (by decide) hperm hseven).symm.trans hload
  exact absurd hpath (by decide)

end ConfigLoader

end PrefixMatch
