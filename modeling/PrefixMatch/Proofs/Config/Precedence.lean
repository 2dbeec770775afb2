import Mathlib
import PrefixMatch.Proofs.Config.RoundTrip

/-!
# Config — precedence

A loaded configuration takes each setting from its variable, else from the file, else from the defaults
(`ConfigLoader.load_precedence`), and so what is said of one setting changes no other one.  This holds for
files whose groups are tables of plain values, as long as no other key of the file is a path into a group:
an index in brackets is one, too (`ConfigLoader.load_indexed_key`).  Any other key of the file may keep it from
being loaded only by an index that leads outside an array.
-/

namespace PrefixMatch

/-! ### Sources -/

namespace Setting

variable {start : String} {env env' : Environment} {file file' : Layer}

/-- The text of a setting is that of the variable named after it. -/
theorem envText?_eq_some_iff (h : Environment.NamesSettings start env) (s : Setting) (text : String) :
    s.envText? start env = some text ↔ ∃ name, s.NamedBy start name ∧ (name, text) ∈ env := by
  constructor
  · intro htext
    obtain ⟨v, hv, rfl⟩ := Option.map_eq_some_iff.mp htext
    have hname := List.find?_some hv
    exact ⟨v.1, of_decide_eq_true hname, List.mem_of_find?_eq_some hv⟩
  · rintro ⟨name, hname, hmem⟩
    induction env with
    | nil => cases hmem
    | cons v env ih =>
        obtain ⟨hsingle, hrest⟩ := List.pairwise_cons.mp h.single
        rcases List.mem_cons.mp hmem with rfl | hmem
        · simp [envText?, hname]
        · -- only one variable bears the name of the setting
          have hne : ¬ s.NamedBy start v.1 := fun hs => hsingle _ hmem s hs hname
          simp only [envText?, List.find?_cons, hne, decide_false]
          exact ih ⟨fun u hu => h.named u (List.mem_cons_of_mem v hu), hrest⟩ hmem

/-- What two files and two environments say of the setting is the same. -/
def SameSource (s : Setting) (start : String) (file file' : Layer) (env env' : Environment) : Prop :=
  s.valueIn? file' = s.valueIn? file ∧ ∀ v, s.NamedBy start v.1 → (v ∈ env' ↔ v ∈ env)

theorem SameSource.source?_eq {s : Setting} (h : s.SameSource start file file' env env')
    (henv : Environment.NamesSettings start env) (henv' : Environment.NamesSettings start env') :
    s.source? start file' env' = s.source? start file env := by
  have htext : s.envText? start env' = s.envText? start env := by
    refine Option.ext fun text => ?_
    rw [envText?_eq_some_iff henv', envText?_eq_some_iff henv]
    exact exists_congr fun name => and_congr_right fun hname => h.2 (name, text) hname
  rw [source?, source?, h.1, htext]

/-- The source of a setting determines its value. -/
theorem Takes.get_eq {s : Setting} {c d : Config} {source : Option LayerValue} (hc : s.Takes c source)
    (hd : s.Takes d source) : s.get c = s.get d := by
  cases source with
  | none => exact hc.trans hd.symm
  | some v => exact Option.some.inj (hc.symm.trans hd)

end Setting

namespace ConfigLoader

variable {lib : Libraries} {l : ConfigLoader} {files : FileTree} {path : String} {file : Layer}
  {env : Environment}

/-- **Variables override the file, and the file overrides the defaults, setting by setting**: a loaded
configuration is valid and takes each setting from its source, and such a configuration is loaded when no key
path of the file leads outside an array.  A setting that another file and another environment say the same of
keeps its value, and if they say the same of all settings, the same is loaded. -/
theorem load_precedence (hpath : l.path = some path) (hfile : fileLayer lib files path = .ok file)
    (htables : file.HasTables) (hapart : file.KeepsApart)
    (henv : Environment.NamesSettings l.envName env) (c : Config) :
    ((l.load lib files env).value = .ok c →
      (∀ s : Setting, s.Takes c (s.source? l.envName file env)) ∧ c.validate = .ok ()) ∧
    (file.Fits lib.maxItems → (∀ s : Setting, s.Takes c (s.source? l.envName file env)) →
      c.validate = .ok () → (l.load lib files env).value = .ok c) ∧
    ∀ {lib' : Libraries} {files' : FileTree} {file' : Layer} {env' : Environment},
      fileLayer lib' files' path = .ok file' → file'.HasTables → file'.KeepsApart →
      Environment.NamesSettings l.envName env' →
      ((l.load lib files env).value = .ok c → ∀ {c'}, (l.load lib' files' env').value = .ok c' →
        ∀ s : Setting, s.SameSource l.envName file file' env env' → s.get c' = s.get c) ∧
      (file.Fits lib.maxItems → file'.Fits lib'.maxItems →
        (∀ s : Setting, s.SameSource l.envName file file' env env') →
        ((l.load lib' files' env').value = .ok c ↔ (l.load lib files env).value = .ok c)) := by
  refine ⟨takes_of_load hpath hfile htables hapart henv, fun hfits htakes hvalid => ?_,
    fun hfile' htables' hapart' henv' => ⟨fun hload c' hload' s hsame => ?_, fun hfits hfits' hsame => ?_⟩⟩
  · exact (load_eq_ok_iff_takes hpath hfile htables hapart hfits henv c).mpr ⟨htakes, hvalid⟩
  · obtain ⟨htakes, -⟩ := takes_of_load hpath hfile htables hapart henv hload
    obtain ⟨htakes', -⟩ := takes_of_load hpath hfile' htables' hapart' henv' hload'
    have hs := htakes' s
    rw [hsame.source?_eq henv henv'] at hs
    exact hs.get_eq (htakes s)
  · rw [load_eq_ok_iff_takes hpath hfile htables hapart hfits henv,
      load_eq_ok_iff_takes hpath hfile' htables' hapart' hfits' henv']
    refine and_congr_left fun _ => forall_congr' fun s => ?_
    rw [(hsame s).source?_eq henv henv']

/-! ### Key paths in files -/

theorem fileLayer_json {text : String} {layer : Layer}
    (h : Layer.ofText? .json text.toList = some layer) :
    fileLayer lib (singleFile "c.json" text) "/c.json" = .ok layer :=
  fileLayer_of_readText rfl (readText_of_read rfl) h

/-- A group, and beside it a key that is a path into a list of its own. -/
def groupText : String :=
  "\x7b\"log\": \x7b\"level\": \"info\", \"json\": \"yes\"\x7d, \"extra[0]\": 1\x7d"

/-- The layer of that text. -/
def groupLayer : Layer :=
  [("log", .table [("level", .text "info"), ("json", .text "yes")]), ("extra[0]", .int 1)]

theorem hasTables_groupLayer : groupLayer.HasTables where
  tables s v hv := by
    cases s <;> cases hv
    all_goals exact ⟨_, rfl⟩
  plain s v hv := by
    cases s <;> cases hv
    all_goals trivial

/-- A variable for the level, and one that does not count. -/
def levelEnv : Environment :=
  [("HOME", "/"), ("niihau__Log__LEVEL", "error")]

/-- A variable overrides the level of the file, and the rest of the file stays, also when the variable
goes. -/
theorem load_precedence_level :
    fileLayer .plain (singleFile "c.json" groupText) "/c.json" = .ok groupLayer ∧
    groupLayer.HasTables ∧ groupLayer.KeepsApart ∧ groupLayer.Fits Libraries.plain.maxItems ∧
    Environment.NamesSettings "NIIHAU" levelEnv ∧
    (({ path := some "/c.json" } : ConfigLoader).load .plain (singleFile "c.json" groupText) levelEnv).value =
      .ok { log := { level := "error", json := true } } ∧
    Setting.level.Takes { log := { level := "error", json := true } } (some (.text "error")) ∧
    Setting.json.Takes { log := { level := "error", json := true } } (some (.text "yes")) ∧
    ∀ {c}, (({ path := some "/c.json" } : ConfigLoader).load .plain (singleFile "c.json" groupText) []).value =
      .ok c → c.log.json = true := by
  have hfile : fileLayer .plain (singleFile "c.json" groupText) "/c.json" = .ok groupLayer :=
    fileLayer_json (by cbv)
  have hapart : groupLayer.KeepsApart := by decide
  have hfits : groupLayer.Fits Libraries.plain.maxItems := by decide
  have henv : Environment.NamesSettings "NIIHAU" levelEnv := by decide
  have hpath : ({ path := some "/c.json" } : ConfigLoader).path = some "/c.json" := rfl
  have hsource : ∀ s : Setting, s.Takes { log := { level := "error", json := true } }
      (s.source? "NIIHAU" groupLayer levelEnv) := by
    intro s
    cases s <;> cbv
  obtain ⟨htakes, hloads, hkeeps⟩ := load_precedence hpath hfile hasTables_groupLayer hapart henv
    { log := { level := "error", json := true } }
  have hload := hloads hfits hsource (by rfl)
  obtain ⟨htakes, -⟩ := htakes hload
  have hlevel : Setting.level.source? "NIIHAU" groupLayer levelEnv = some (.text "error") := by cbv
  have hjson : Setting.json.source? "NIIHAU" groupLayer levelEnv = some (.text "yes") := by cbv
  refine ⟨hfile, hasTables_groupLayer, hapart, hfits, henv, hload, hlevel ▸ htakes .level,
    hjson ▸ htakes .json, fun hload' => ?_⟩
  have hsame := (hkeeps hfile hasTables_groupLayer hapart (by decide)).1 hload hload' .json
  refine hsame ⟨rfl, fun v hv => ?_⟩
  refine ⟨fun hmem => absurd hmem List.not_mem_nil, fun hmem => ?_⟩
  simp only [levelEnv, List.mem_cons, List.not_mem_nil, or_false] at hmem
  rcases hmem with rfl | rfl
  · exact absurd hv (by decide)
  · exact absurd hv (by decide)

theorem hasTables_indexed : Layer.HasTables [("log[0]", .text "error")] where
  tables s v hv := by cases s <;> cases hv
  plain s v hv := by cases s <;> cases hv

/-- Keys without a dot may be paths, too: a key with an index in brackets puts a list in the place of a
group. -/
theorem load_indexed_key :
    ¬ ∀ (l : ConfigLoader) (lib : Libraries) (files : FileTree) (env : Environment) (path : String)
      (file : Layer) (c : Config), l.path = some path → fileLayer lib files path = .ok file →
      file.HasTables → (∀ key ∈ Fields.keys file, '.' ∉ key.toList) →
      Environment.NamesSettings l.envName env → (l.load lib files env).value = .ok c →
      ∀ s : Setting, s.Takes c (s.source? l.envName file env) := by
  intro h
  have hfile : fileLayer .plain (singleFile "c.json" "\x7b\"log[0]\": \"error\"\x7d") "/c.json" =
      .ok [("log[0]", .text "error")] := fileLayer_json (by cbv)
  have hload : (({ path := some "/c.json" } : ConfigLoader).load .plain
      (singleFile "c.json" "\x7b\"log[0]\": \"error\"\x7d") []).value =
        .ok { log := { level := "error" } } := by
    rw [value_load, resolve_of_layers (layers_of_fileLayer rfl hfile)]
    cbv
  have hlevel := h _ _ _ [] _ _ _ rfl hfile hasTables_indexed (by decide) (by decide) hload .level
  -- neither the file nor the environment says anything of the level
  have hdefault : "error" = ({} : Config).log.level := hlevel
  exact absurd hdefault (by decide)

end ConfigLoader

end PrefixMatch
