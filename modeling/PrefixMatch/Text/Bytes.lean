/-!
# Text — Bytes

The UTF-8 form of a text as far as offsets and order need it: the byte length of a list of
characters, the part of it before a byte offset, and the order of two texts by their bytes.
-/

namespace PrefixMatch.Text

/-- The number of bytes that a list of characters takes in UTF-8. -/
def byteLength (cs : List Char) : Nat :=
  cs.foldr (fun c n => c.utf8Size + n) 0

/-- The part of a text before a byte offset; `none` when the offset lies beyond the end or inside a
character. -/
def before? : Nat → List Char → Option (List Char)
  | 0, _ => some []
  | _ + 1, [] => none
  | n + 1, c :: cs =>
    if c.utf8Size ≤ n + 1 then (before? (n + 1 - c.utf8Size) cs).map (c :: ·) else none

/-- The bytes of a text. -/
def bytes (cs : List Char) : List UInt8 :=
  cs.flatMap String.utf8EncodeChar

/-- Whether the bytes of the first text come no later than those of the second. -/
def bytesLE (a b : String) : Bool :=
  decide (bytes a.toList ≤ bytes b.toList)

end PrefixMatch.Text
