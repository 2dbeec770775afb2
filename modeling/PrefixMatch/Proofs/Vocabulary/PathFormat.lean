import PrefixMatch.Proofs.Files.Path
import PrefixMatch.Vocabulary.Format

/-!
# Vocabulary — the format of a path

The format that a path is inferred to have depends on the last segment of the path alone, and of that segment
on what stands behind its last dot (`Format.ofPath?_iff_lastSegment`).
-/

namespace PrefixMatch.Format

/-- The extensions that stand for a format. -/
def extensions : Format → List String
  | .lines => ["txt", "lst", "list"]
  | .json => ["json"]
  | .toml => ["toml"]

theorem ofExtension?_eq_some_iff {ext : List Char} {f : Format} :
    ofExtension? ext = some f ↔ String.ofList ext ∈ f.extensions := by
  rw [ofExtension?]
  split
  all_goals
    next h => cases f <;> simp_all [extensions]

theorem ofPath?_eq_some_iff {path : String} {f : Format} :
    ofPath? path = some f ↔
      ∃ stem ext : String, Path.LastSegment path.toList (stem ++ "." ++ ext).toList ∧
        stem ++ "." ++ ext ≠ ".." ∧ stem ≠ "" ∧ '.' ∉ ext.toList ∧ ext ∈ f.extensions := by
  simp only [ofPath?, Option.bind_eq_some_iff, Path.extension?_eq_some_iff, ofExtension?_eq_some_iff]
  constructor
  · rintro ⟨ext, ⟨name, stem, hlast, hup, hstem, rfl, hdot⟩, hext⟩
    refine ⟨String.ofList stem, String.ofList ext, ?_, ?_, ?_, ?_, hext⟩
    · simpa using hlast
    · simpa [← String.toList_inj] using hup
    · simpa using hstem
    · simpa using hdot
  · rintro ⟨stem, ext, hlast, hup, hstem, hdot, hext⟩
    refine ⟨ext.toList, ⟨_, stem.toList, hlast, ?_, ?_, ?_, hdot⟩, ?_⟩
    · exact fun h => hup (String.toList_inj.mp h)
    · simpa using hstem
    · simp
    · simpa using hext

/-- What adds no segment to a path does not change its format. -/
theorem ofPath?_congr {path path' : String}
    (h : (Path.segments path.toList).getLast? = (Path.segments path'.toList).getLast?) :
    ofPath? path = ofPath? path' := by
  rw [ofPath?, ofPath?, Path.extension?_congr h]

/-- **The format of a path is told by its last segment alone.**  It is there just when the last segment, slashes
and single dots behind it left out, does not lead upwards and is a stem that is not empty, a dot, and one of the
extensions of the format, in just these letters, as the part behind the last dot.  So a slash at the end changes
nothing, nor does a slash with a single dot, nor do the directories in front of a name. -/
theorem ofPath?_iff_lastSegment :
    (∀ (path : String) (f : Format), ofPath? path = some f ↔
      ∃ stem ext : String, Path.LastSegment path.toList (stem ++ "." ++ ext).toList ∧
        stem ++ "." ++ ext ≠ ".." ∧ stem ≠ "" ∧ '.' ∉ ext.toList ∧ ext ∈ f.extensions) ∧
    (∀ path : String, ofPath? (path ++ "/") = ofPath? path ∧ ofPath? (path ++ "/.") = ofPath? path) ∧
    ∀ dir name : String, '/' ∉ name.toList → name ≠ "" → name ≠ "." →
      ofPath? (dir ++ "/" ++ name) = ofPath? name := by
  refine ⟨fun path f => ofPath?_eq_some_iff, fun path => ⟨ofPath?_congr ?_, ofPath?_congr ?_⟩,
    fun dir name hslash hempty hdot => ofPath?_congr ?_⟩
  · have hpath : (path ++ "/").toList = path.toList ++ ['/'] := String.toList_append
    rw [hpath, (Path.Trailing.slash .nil).segments_append]
  · have hpath : (path ++ "/.").toList = path.toList ++ ['/', '.'] := String.toList_append
    rw [hpath, (Path.Trailing.dot .nil).segments_append]
  · have hpath : (dir ++ "/" ++ name).toList = dir.toList ++ '/' :: name.toList := by simp
    have hname : Path.IsSegment name.toList :=
      ⟨hslash, mt String.toList_eq_nil_iff.mp hempty, fun h => hdot (String.toList_inj.mp h)⟩
    rw [hpath, Path.segments_append, hname.segments_eq, List.getLast?_concat, List.getLast?_singleton]

/-- Below a directory with an extension of its own, and with a single dot behind it, a name that begins with two
dots has the format of its extension; one that begins with its only dot has none wherever it stands. -/
theorem ofPath?_iff_lastSegment_hidden :
    ofPath? "v.txt/..json" = some .json ∧ ofPath? ("v.txt/..json" ++ "/.") = some .json ∧
      ofPath? ("v.txt" ++ "/" ++ ".json") = none := by
  obtain ⟨hiff, htrailing, hdir⟩ := ofPath?_iff_lastSegment
  have hpath : "v.txt/..json".toList = "v.txt".toList ++ '/' :: ("..json".toList ++ []) := by decide
  have hsegment : Path.IsSegment "..json".toList := ⟨by decide, by decide, by decide⟩
  have hlast : Path.LastSegment "v.txt/..json".toList "..json".toList := hpath ▸ .below _ hsegment .nil
  have hjson : ofPath? "v.txt/..json" = some .json :=
    (hiff _ _).mpr ⟨".", "json", hlast, by decide, by decide, by decide, by decide⟩
  have hname : ofPath? ("v.txt" ++ "/" ++ ".json") = ofPath? ".json" :=
    hdir "v.txt" ".json" (by decide) (by decide) (by decide)
  exact ⟨hjson, (htrailing "v.txt/..json").2.trans hjson, hname.trans (by decide)⟩

end PrefixMatch.Format
