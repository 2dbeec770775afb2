import PrefixMatch.Event
import PrefixMatch.Layer.Value

/-!
# Libraries

What the program leaves to the libraries that it stands on.  Of these nothing is known but what a field of
`Libraries` says, so that whatever holds under all of them holds whichever order a hash table happens to
have, and however the readers of documents put their complaints.
-/

namespace PrefixMatch

/-- The libraries that a run stands on. -/
structure Libraries where
  /-- The order in which a layer gives out its keys, which it keeps in a hash table. -/
  order : Layer → Layer
  order_perm : ∀ layer, (order layer).Perm layer
  /-- The largest number of items that an array can grow to. -/
  maxItems : Nat
  /-- What is said of settings that cannot be read as a configuration. -/
  configDetail : List (String × LayerValue) → String
  /-- What is said of the file at a path whose text, if there is one, is not valid in its format. -/
  fileDetail : String → Option String → String
  /-- What is said of a text that is not valid in the format of its vocabulary. -/
  vocabularyDetail : Format → String → String
  /-- What a crash prints. -/
  crashText : String
  /-- The events that a text asks for, if it is a filter of events. -/
  filter? : String → Option (Event → Bool)

namespace Libraries

/-- Libraries that give out keys as they come, have nothing to say, and take no text for a filter.  An item of
an array takes 96 bytes, and no array more than half of the addresses. -/
def plain : Libraries where
  order layer := layer
  order_perm _ := .refl _
  maxItems := 0x7fffffffffffffff / 96
  configDetail _ := ""
  fileDetail _ _ := ""
  vocabularyDetail _ _ := ""
  crashText := ""
  filter? _ := none

end Libraries

end PrefixMatch
