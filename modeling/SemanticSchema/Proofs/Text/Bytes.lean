import Mathlib.Data.List.Basic
import SemanticSchema.Text.Bytes

/-!
# The bytes of a text

A text as the list of the bytes of its UTF-8 form, beside the measures that are taken of its characters.

* `Text.bytes` : the bytes of a text, `Text.bytes_eq_flatMap` : those of its characters in a row;
* `Text.length_bytes` : as many as are counted;
* `Text.lineBreak` : the byte of a line break, `Text.lineBreak_mem_iff` : no other character holds it;
* `Text.sliceBytes?_append` : the characters between two offsets are those that stand between them.
-/

set_option autoImplicit false

namespace SemanticSchema.Text

/-- The bytes of a text. -/
def bytes (text : String) : List UInt8 := text.toByteArray.data.toList

theorem bytes_eq_flatMap (text : String) : bytes text = text.toList.flatMap String.utf8EncodeChar := by
  have htext : text.toByteArray = text.toList.utf8Encode := by
    rw [← String.toByteArray_ofList, String.ofList_toList]
  rw [bytes, htext, List.utf8Encode, List.data_toByteArray]

theorem length_flatMap_utf8EncodeChar (cs : List Char) :
    (cs.flatMap String.utf8EncodeChar).length = byteLength cs := by
  induction cs with
  | nil => rfl
  | cons c cs ih => rw [List.flatMap_cons, List.length_append, String.length_utf8EncodeChar, ih, byteLength]

theorem length_bytes (text : String) : (bytes text).length = text.utf8ByteSize := rfl

theorem byteLength_toList (text : String) : byteLength text.toList = text.utf8ByteSize := by
  rw [← length_bytes, bytes_eq_flatMap, length_flatMap_utf8EncodeChar]

/-- The byte of a line break. -/
def lineBreak : UInt8 := 10

/-- The bytes of a character of several bytes have their highest bit set, so none of them is a line break. -/
theorem lineBreak_mem_iff (c : Char) : lineBreak ∈ String.utf8EncodeChar c ↔ c = '\n' := by
  constructor
  · intro h
    have hvalue : c.val.toNat = 10 := by
      unfold String.utf8EncodeChar at h
      have hbyte (n : Nat) (hn : lineBreak = UInt8.ofNat n) : n % 256 = 10 := by
        have := congrArg UInt8.toNat hn
        simpa [lineBreak] using this.symm
      dsimp only at h
      split_ifs at h
      all_goals
        simp only [List.mem_cons, List.not_mem_nil, or_false] at h
      · have := hbyte _ h
        omega
      · rcases h with h | h <;> have := hbyte _ h <;> omega
      · rcases h with h | h | h <;> have := hbyte _ h <;> omega
      · rcases h with h | h | h | h <;> have := hbyte _ h <;> omega
    exact Char.ext (UInt32.toNat_inj.1 hvalue)
  · rintro rfl
    decide

/-! ## Offsets -/

theorem byteLength_append (cs ds : List Char) : byteLength (cs ++ ds) = byteLength cs + byteLength ds := by
  rw [← length_flatMap_utf8EncodeChar, List.flatMap_append, List.length_append, length_flatMap_utf8EncodeChar,
    length_flatMap_utf8EncodeChar]

theorem byteLength_pos {cs : List Char} (h : cs ≠ []) : 0 < byteLength cs := by
  obtain ⟨c, cs, rfl⟩ := List.exists_cons_of_ne_nil h
  exact Nat.add_pos_left c.utf8Size_pos _

theorem byteLength_of_ascii {cs : List Char} (h : ∀ c ∈ cs, c.val ≤ 127) : byteLength cs = cs.length := by
  induction cs with
  | nil => rfl
  | cons c cs ih =>
    obtain ⟨hc, hcs⟩ := List.forall_mem_cons.1 h
    rw [byteLength, Char.utf8Size_eq_one_iff.2 hc, ih hcs, List.length_cons, Nat.add_comm]

theorem dropBytes?_cons (c : Char) (cs : List Char) (n : Nat) :
    dropBytes? (c.utf8Size + n) (c :: cs) = dropBytes? n cs := by
  have hpos : 0 < c.utf8Size := c.utf8Size_pos
  have hsum : c.utf8Size + n = c.utf8Size + n - 1 + 1 := by omega
  rw [hsum, dropBytes?, if_pos (by omega)]
  congr 1
  omega

theorem takeBytes?_cons (c : Char) (cs : List Char) (n : Nat) :
    takeBytes? (c.utf8Size + n) (c :: cs) = (takeBytes? n cs).map (c :: ·) := by
  have hpos : 0 < c.utf8Size := c.utf8Size_pos
  have hsum : c.utf8Size + n = c.utf8Size + n - 1 + 1 := by omega
  rw [hsum, takeBytes?, if_pos (by omega)]
  congr 2
  omega

theorem dropBytes?_append (cs ds : List Char) : dropBytes? (byteLength cs) (cs ++ ds) = some ds := by
  induction cs with
  | nil => cases ds <;> rfl
  | cons c cs ih => rw [byteLength, List.cons_append, dropBytes?_cons, ih]

theorem takeBytes?_append (cs ds : List Char) : takeBytes? (byteLength cs) (cs ++ ds) = some cs := by
  induction cs with
  | nil => cases ds <;> rfl
  | cons c cs ih => rw [byteLength, List.cons_append, takeBytes?_cons, ih, Option.map_some]

theorem sliceBytes?_append (cs ds es : List Char) :
    sliceBytes? (cs ++ (ds ++ es)) (byteLength cs) (byteLength cs + byteLength ds) = some ds := by
  rw [sliceBytes?, if_pos (Nat.le_add_right _ _), dropBytes?_append, Option.bind_some, Nat.add_sub_cancel_left,
    takeBytes?_append]

end SemanticSchema.Text
