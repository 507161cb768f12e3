/-!
# Text measured in bytes

Offsets into a text count the bytes of its UTF-8 form.

* `byteLength` : the number of bytes of some characters;
* `dropBytes?`, `takeBytes?` : the characters from, or up to, an offset, provided that it lies
  within the text and at the start of a character;
* `sliceBytes?` : the characters between two offsets.
-/

set_option autoImplicit false

namespace SemanticSchema.Text

/-- The number of bytes of some characters. -/
def byteLength : List Char → Nat
  | [] => 0
  | c :: cs => c.utf8Size + byteLength cs

/-- The characters from byte `n` on. -/
def dropBytes? : Nat → List Char → Option (List Char)
  | 0, cs => some cs
  | _ + 1, [] => none
  | n + 1, c :: cs => if c.utf8Size ≤ n + 1 then dropBytes? (n + 1 - c.utf8Size) cs else none

/-- The characters before byte `n`. -/
def takeBytes? : Nat → List Char → Option (List Char)
  | 0, _ => some []
  | _ + 1, [] => none
  | n + 1, c :: cs =>
    if c.utf8Size ≤ n + 1 then (takeBytes? (n + 1 - c.utf8Size) cs).map (c :: ·) else none

/-- The characters from byte `start` up to byte `stop`. -/
def sliceBytes? (cs : List Char) (start stop : Nat) : Option (List Char) :=
  if start ≤ stop then (dropBytes? start cs).bind (takeBytes? (stop - start)) else none

end SemanticSchema.Text
