import SemanticSchema.Proofs.Source.Cut

/-!
# Lines cover a text

The lines of a text, found by their numbers, are ranges of bytes that follow one another from the start of the
text to its end. None of them is empty, and each but the last ends with the only line break in it. Every byte
lies in one of them, and has its place there.

* `SourceFile.getElem?_bytes_of_cut` : the bytes of a line among those of the text;
* `SourceFile.getElem?_line_last`, `SourceFile.getElem?_line_ne_lineBreak` : where a line has its line break;
* `SourceFile.IsLine` : what the line of some number is, `SourceFile.isLine_of_cut` : the lines of a text are such;
* `SourceFile.exists_isLine`, `SourceFile.lineRange?_of_unnumbered` : which numbers have a line;
* `SourceFile.lines_partition` : lines cover the text, and there are no others.
-/

set_option autoImplicit false

namespace SemanticSchema.SourceFile

open Text

variable {path text : String} {before after : List (List Char)} {line : List Char}

/-! ## The bytes of lines -/

theorem lineBreak_mem_flatMap_iff {cs : List Char} : lineBreak ∈ cs.flatMap String.utf8EncodeChar ↔ '\n' ∈ cs := by
  simp [List.mem_flatMap, lineBreak_mem_iff]

theorem getElem?_bytes_of_cut (hcut : linesOf text.toList = before ++ line :: after) {i : Nat}
    (hi : i < byteLength line) :
    (bytes text)[byteLength before.flatten + i]? = (line.flatMap String.utf8EncodeChar)[i]? := by
  have hbytes : bytes text = before.flatten.flatMap String.utf8EncodeChar ++
      (line.flatMap String.utf8EncodeChar ++ after.flatten.flatMap String.utf8EncodeChar) := by
    rw [bytes_eq_flatMap, ← flatten_linesOf text.toList, hcut, List.flatten_append, List.flatten_cons,
      List.flatMap_append, List.flatMap_append]
  rw [hbytes, ← length_flatMap_utf8EncodeChar before.flatten, List.getElem?_append_right (Nat.le_add_right _ _),
    Nat.add_sub_cancel_left, List.getElem?_append_left (by rwa [length_flatMap_utf8EncodeChar])]

/-- Behind the characters of a line that are no line break only its end is left. -/
theorem getElem?_line_ne_lineBreak (hline : line ∈ linesOf text.toList) {i : Nat} (hi : i + 1 < byteLength line) :
    (line.flatMap String.utf8EncodeChar)[i]? ≠ some lineBreak := by
  obtain ⟨body, hbody, hends⟩ := exists_body_of_mem_linesOf hline
  have hnone : (body.flatMap String.utf8EncodeChar)[i]? ≠ some lineBreak := fun h =>
    hbody (lineBreak_mem_flatMap_iff.1 (List.mem_of_getElem? h))
  rcases hends with ⟨rfl, -⟩ | rfl
  · exact hnone
  · have hbreak : byteLength ['\n'] = 1 := by decide
    rw [byteLength_append, hbreak] at hi
    rw [List.flatMap_append, List.getElem?_append_left (by rw [length_flatMap_utf8EncodeChar]; omega)]
    exact hnone

theorem getElem?_line_last (hcut : linesOf text.toList = before ++ line :: after) (hafter : after ≠ []) :
    (line.flatMap String.utf8EncodeChar)[byteLength line - 1]? = some lineBreak := by
  obtain ⟨body, -, ⟨-, -, hlast⟩ | rfl⟩ := exists_body_of_cut hcut
  · exact absurd hlast hafter
  have hbreak : byteLength ['\n'] = 1 := by decide
  rw [byteLength_append, hbreak, Nat.add_sub_cancel, List.flatMap_append, ← length_flatMap_utf8EncodeChar body]
  exact List.getElem?_concat_length

/-! ## Lines by number -/

/-- The bytes from `start` up to `stop` are those of a line, which starts where the line before it stops. -/
structure IsLine (f : SourceFile) (number start stop : Nat) : Prop where
  range : f.lineRange? number = some (start, stop)
  nonempty : start < stop
  first : number = 1 → start = 0
  last : number = f.lineCount → stop = f.text.utf8ByteSize
  next : number < f.lineCount → ∃ stop', f.lineRange? (number + 1) = some (stop, stop')
  ended : number < f.lineCount → (bytes f.text)[stop - 1]? = some lineBreak
  inside : ∀ i, start ≤ i → i + 1 < stop → (bytes f.text)[i]? ≠ some lineBreak
  shown : ∃ shown, f.lineText? number = some shown

theorem lineCount_ofText (path text : String) : (ofText path text).lineCount = (linesOf text.toList).length := by
  rw [lineCount, lineStarts_ofText, length_startsFrom, Nat.add_sub_cancel]

theorem lineCount_of_cut (path : String) (hcut : linesOf text.toList = before ++ line :: after) :
    (ofText path text).lineCount = before.length + 1 + after.length := by
  rw [lineCount_ofText, hcut, List.length_append, List.length_cons]
  omega

theorem isLine_of_cut (path : String) (hcut : linesOf text.toList = before ++ line :: after) :
    IsLine (ofText path text) (before.length + 1) (byteLength before.flatten)
      (byteLength before.flatten + byteLength line) := by
  have hmem : line ∈ linesOf text.toList := by
    rw [hcut]
    exact List.mem_append_right _ List.mem_cons_self
  have hpos : 0 < byteLength line := byteLength_pos (ne_nil_of_mem_linesOf hmem)
  have hcount := lineCount_of_cut path hcut
  have hbehind (h : before.length + 1 < (ofText path text).lineCount) : ∃ next rest, after = next :: rest :=
    List.exists_cons_of_ne_nil (by rintro rfl; rw [List.length_nil] at hcount; omega)
  refine
    { range := lineRange?_of_cut path hcut
      nonempty := by omega
      first := fun h => ?_
      last := fun h => ?_
      next := fun h => ?_
      ended := fun h => ?_
      inside := fun i hstart hstop => ?_
      shown := ⟨_, lineText?_of_cut path hcut⟩ }
  · have hbefore : before = [] := List.length_eq_zero_iff.1 (by omega)
    rw [hbefore]
    rfl
  · have hafter : after = [] := List.length_eq_zero_iff.1 (by omega)
    have hsize := size_of_cut hcut
    rw [hafter] at hsize
    exact hsize.symm
  · obtain ⟨next, rest, rfl⟩ := hbehind h
    have hnext : linesOf text.toList = (before ++ [line]) ++ next :: rest := by rw [hcut, List.append_assoc]; rfl
    have hrange := lineRange?_of_cut path hnext
    rw [List.length_append, List.length_singleton, List.flatten_append, byteLength_append,
      List.flatten_singleton] at hrange
    exact ⟨_, hrange⟩
  · obtain ⟨next, rest, rfl⟩ := hbehind h
    change (bytes text)[_]? = _
    rw [Nat.add_sub_assoc hpos, getElem?_bytes_of_cut hcut (Nat.sub_one_lt_of_lt hpos),
      getElem?_line_last hcut (List.cons_ne_nil _ _)]
  · obtain ⟨k, rfl⟩ := Nat.exists_eq_add_of_le hstart
    change (bytes text)[_]? ≠ _
    rw [getElem?_bytes_of_cut hcut (by omega)]
    exact getElem?_line_ne_lineBreak hmem (by omega)

theorem lineCount_eq_zero_iff (path : String) : (ofText path text).lineCount = 0 ↔ text.utf8ByteSize = 0 := by
  rw [lineCount_ofText, List.length_eq_zero_iff, ← byteLength_toList]
  constructor
  · intro hnil
    rw [← flatten_linesOf text.toList, hnil]
    rfl
  · intro hzero
    have hnil : text.toList = [] := by
      by_contra hne
      have hpos := byteLength_pos hne
      omega
    rw [hnil]
    rfl

/-- Every number up to the count is the number of a line: the text is cut before it. -/
theorem exists_isLine (path : String) {number : Nat} (hpos : 0 < number)
    (hle : number ≤ (ofText path text).lineCount) : ∃ start stop, (ofText path text).IsLine number start stop := by
  rw [lineCount_ofText] at hle
  obtain ⟨i, rfl⟩ : ∃ i, number = i + 1 := ⟨number - 1, by omega⟩
  have hi : i < (linesOf text.toList).length := by omega
  have hcut : linesOf text.toList =
      (linesOf text.toList).take i ++ (linesOf text.toList)[i] :: (linesOf text.toList).drop (i + 1) := by
    rw [← List.drop_eq_getElem_cons hi, List.take_append_drop]
  have hline := isLine_of_cut path hcut
  rw [List.length_take_of_le (Nat.le_of_lt hi)] at hline
  exact ⟨_, _, hline⟩

theorem lineRange?_of_unnumbered {f : SourceFile} {number : Nat} (h : number = 0 ∨ f.lineCount < number) :
    f.lineRange? number = none := by
  cases number with
  | zero => rfl
  | succ i =>
    refine lineRange?_eq_none ?_
    rw [lineCount] at h
    omega

/-- The lines of a text with a fresh table of their starts are numbered from 1. An empty text has none. Each is a
range of bytes that is not empty. The first starts at the start of the text, each other one where the one before
it stops, and the last stops at the end of the text. Each but the last ends with a line break, and no line has one
before its last byte. Its text is always found; no other number has a range or a text. The place of a byte is its
line and how far it lies behind the start of that. -/
theorem lines_partition (path : String) (hshort : text.utf8ByteSize < placeBound) :
    let f := ofText path text
    (f.lineCount = 0 ↔ text.utf8ByteSize = 0) ∧
    (∀ number, 0 < number → number ≤ f.lineCount → ∃ start stop, f.IsLine number start stop) ∧
    (∀ number, number = 0 ∨ f.lineCount < number → f.lineRange? number = none ∧ f.lineText? number = none) ∧
    ∀ offset, offset < text.utf8ByteSize → ∃ number start stop,
      f.lineCol? offset = some (number, offset - start + 1) ∧ f.lineRange? number = some (start, stop) ∧
        start ≤ offset ∧ offset < stop := by
  intro f
  refine ⟨lineCount_eq_zero_iff path, fun number => exists_isLine path, fun number hnumber => ?_, ?_⟩
  · have hrange : f.lineRange? number = none := lineRange?_of_unnumbered hnumber
    exact ⟨hrange, by rw [lineText?, hrange, Option.bind_none]⟩
  · intro offset hlt
    rw [← byteLength_toList, ← flatten_linesOf text.toList] at hlt
    obtain ⟨before, line, after, hcut, hle, hlt⟩ := exists_cut hlt
    exact ⟨_, _, _, lineCol?_of_cut path hshort hcut hle hlt, lineRange?_of_cut path hcut, hle, hlt⟩

/-- A letter of two bytes with its line break, a line break alone, and a last line without one. The second byte of
the letter is the second of its line. -/
theorem lines_partition_accented :
    let f := ofText "a.taxi" "é\n\nb"
    "é\n\nb".utf8ByteSize < placeBound ∧ f.IsLine 1 0 3 ∧ f.IsLine 3 4 5 ∧ f.lineRange? 4 = none ∧
      ∃ number start, f.lineCol? 1 = some (number, 1 - start + 1) ∧ start ≤ 1 := by
  intro f
  have hshort : "é\n\nb".utf8ByteSize < placeBound := by decide +kernel
  obtain ⟨-, hlines, hothers, hplaces⟩ := lines_partition "a.taxi" hshort
  have hfirst : f.lineRange? 1 = some (0, 3) := by decide +kernel
  have hlast : f.lineRange? 3 = some (4, 5) := by decide +kernel
  obtain ⟨start, stop, hline⟩ := hlines 1 (by decide) (by decide +kernel)
  obtain ⟨start', stop', hline'⟩ := hlines 3 (by decide) (by decide +kernel)
  cases hfirst.symm.trans hline.range
  cases hlast.symm.trans hline'.range
  obtain ⟨number, start, -, hplace, -, hle, -⟩ := hplaces 1 (by decide +kernel)
  exact ⟨hshort, hline, hline', (hothers 4 (Or.inr (by decide +kernel))).1, number, start, hplace, hle⟩

end SemanticSchema.SourceFile
