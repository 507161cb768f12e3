import Mathlib.Data.List.Induction
import SemanticSchema.Proofs.Text.Bytes
import SemanticSchema.Source

/-!
# Lines and columns

The search in the table of line starts, beside a count of the line breaks before an offset.

* `SourceFile.breakOffsets` : the offsets behind the line breaks among some bytes, `SourceFile.breaksFrom_eq` :
  those that the table lists;
* `SourceFile.sinceBreak` : the bytes behind the last line break;
* `SourceFile.lineIndex_eq` : the search finds the last start that is not behind an offset;
* `SourceFile.lineStartsOf_split` : the starts up to an offset, and those behind it;
* `SourceFile.lineCol_exact` : line and column of every offset.
-/

set_option autoImplicit false

namespace SemanticSchema.SourceFile

open Text

variable {offset : Nat} {bs : List UInt8}

/-! ## Line breaks among bytes -/

/-- The offsets behind the line breaks among some bytes, of which the first lies at `offset`. -/
def breakOffsets (offset : Nat) : List UInt8 → List Nat
  | [] => []
  | b :: bs => if b = lineBreak then (offset + 1) :: breakOffsets (offset + 1) bs else breakOffsets (offset + 1) bs

theorem breakOffsets_append (offset : Nat) (bs cs : List UInt8) :
    breakOffsets offset (bs ++ cs) = breakOffsets offset bs ++ breakOffsets (offset + bs.length) cs := by
  induction bs generalizing offset with
  | nil => rfl
  | cons b bs ih =>
    have hlength : offset + 1 + bs.length = offset + (b :: bs).length := by
      rw [List.length_cons]
      omega
    rw [List.cons_append, breakOffsets, ih, hlength, breakOffsets]
    split <;> rfl

theorem length_breakOffsets (offset : Nat) (bs : List UInt8) :
    (breakOffsets offset bs).length = bs.count lineBreak := by
  induction bs generalizing offset with
  | nil => rfl
  | cons b bs ih =>
    rw [breakOffsets, List.count_cons]
    by_cases hb : b = lineBreak
    · simp [hb, ih]
    · simp [hb, ih]

theorem breakOffsets_eq_nil (h : lineBreak ∉ bs) : breakOffsets offset bs = [] := by
  rw [← List.length_eq_zero_iff, length_breakOffsets, List.count_eq_zero]
  exact h

theorem bounds_of_mem_breakOffsets {x : Nat} (h : x ∈ breakOffsets offset bs) :
    offset < x ∧ x ≤ offset + bs.length := by
  induction bs generalizing offset with
  | nil => cases h
  | cons b bs ih =>
    have hrest : x ∈ breakOffsets (offset + 1) bs → offset < x ∧ x ≤ offset + (b :: bs).length := by
      intro hx
      have hbounds := ih hx
      rw [List.length_cons]
      omega
    rw [breakOffsets] at h
    split at h
    · rcases List.mem_cons.1 h with rfl | h
      · rw [List.length_cons]
        omega
      · exact hrest h
    · exact hrest h

/-- The table lists the offsets behind the line breaks among the bytes of the characters. -/
theorem breaksFrom_eq (offset : Nat) (cs : List Char) :
    breaksFrom offset cs = breakOffsets offset (cs.flatMap String.utf8EncodeChar) := by
  induction cs generalizing offset with
  | nil => rfl
  | cons c cs ih =>
    rw [breaksFrom, List.flatMap_cons, breakOffsets_append, String.length_utf8EncodeChar]
    by_cases hc : c = '\n'
    · rw [if_pos hc, hc, ih]
      rfl
    · have hnone : lineBreak ∉ String.utf8EncodeChar c := fun h => hc ((lineBreak_mem_iff c).1 h)
      rw [if_neg hc, breakOffsets_eq_nil hnone, ih, List.nil_append]

/-! ## The last line break -/

/-- The number of bytes behind the last line break among some bytes, or of all if there is none. -/
def sinceBreak (bs : List UInt8) : Nat := (bs.reverse.takeWhile (· != lineBreak)).length

theorem sinceBreak_concat (bs : List UInt8) (b : UInt8) :
    sinceBreak (bs ++ [b]) = if b = lineBreak then 0 else sinceBreak bs + 1 := by
  unfold sinceBreak
  rw [List.reverse_append, List.reverse_singleton, List.singleton_append, List.takeWhile_cons]
  by_cases hb : b = lineBreak <;> simp [hb]

/-- The last start up to the end of some bytes lies as far back as they have bytes behind their last
line break. -/
theorem getLast?_breakOffsets (bs : List UInt8) :
    ∃ start, (0 :: breakOffsets 0 bs).getLast? = some start ∧ start + sinceBreak bs = bs.length := by
  induction bs using List.reverseRecOn with
  | nil => exact ⟨0, rfl, rfl⟩
  | append_singleton bs b ih =>
    rw [breakOffsets_append, sinceBreak_concat, List.length_append, List.length_singleton, ← List.cons_append]
    by_cases hb : b = lineBreak
    · refine ⟨bs.length + 1, ?_, by rw [if_pos hb]⟩
      rw [breakOffsets, if_pos hb, Nat.zero_add, breakOffsets, List.getLast?_append]
      rfl
    · obtain ⟨start, hlast, hstart⟩ := ih
      refine ⟨start, ?_, by rw [if_neg hb]; omega⟩
      rw [breakOffsets, if_neg hb, breakOffsets, List.append_nil]
      exact hlast

/-- Whether some bytes are none, or end with a line break. -/
def EndsLine (bs : List UInt8) : Prop := ∀ b ∈ bs.getLast?, b = lineBreak

instance (bs : List UInt8) : Decidable (EndsLine bs) :=
  inferInstanceAs (Decidable (∀ b ∈ bs.getLast?, b = lineBreak))

theorem sinceBreak_eq_zero_iff : sinceBreak bs = 0 ↔ EndsLine bs := by
  cases bs using List.reverseRecOn with
  | nil => simp [sinceBreak, EndsLine]
  | append_singleton bs b => simp [sinceBreak_concat, EndsLine]

/-! ## The search -/

/-- If the entries up to place `p` and no others are at most `offset`, the search comes to `p`. -/
theorem lineIndex_eq {starts : List Nat} {p base width : Nat}
    (h : ∀ i < starts.length, starts.getD i 0 ≤ offset ↔ i ≤ p) (hbase : base ≤ p) (hp : p < base + width)
    (hwidth : base + width ≤ starts.length) : lineIndex starts offset base width = p := by
  induction base, width using lineIndex.induct starts offset with
  | case1 base width hsmall =>
    rw [lineIndex, if_pos hsmall]
    omega
  | case2 base width hlarge ih =>
    rw [lineIndex, if_neg hlarge]
    have hmiddle := h (base + width / 2) (by omega)
    by_cases hbehind : offset < starts.getD (base + width / 2) 0
    · have hlt : p < base + width / 2 := by omega
      simp only [dif_pos hbehind, if_pos hbehind] at ih ⊢
      exact ih hbase (by omega) (by omega)
    · have hle : base + width / 2 ≤ p := hmiddle.1 (by omega)
      simp only [dif_neg hbehind, if_neg hbehind] at ih ⊢
      exact ih hle (by omega) (by omega)

theorem lineIndex_append {front back : List Nat} (hne : front ≠ []) (hfront : ∀ x ∈ front, x ≤ offset)
    (hback : ∀ x ∈ back, offset < x) :
    lineIndex (front ++ back) offset 0 (front ++ back).length = front.length - 1 := by
  have hpos : 0 < front.length := List.length_pos_of_ne_nil hne
  have hlength : (front ++ back).length = front.length + back.length := List.length_append
  refine lineIndex_eq (fun i hi => ?_) (Nat.zero_le _) (by omega) (by omega)
  rw [List.getD_eq_getElem?_getD, List.getElem?_eq_getElem hi, Option.getD_some]
  by_cases hplace : i < front.length
  · rw [List.getElem_append_left hplace]
    have hle := hfront _ (List.getElem_mem hplace)
    omega
  · rw [List.getElem_append_right (by omega)]
    have hlt := hback _ (List.getElem_mem (l := back) (n := i - front.length) (by omega))
    omega

/-! ## The table -/

theorem lineStartsOf_eq (text : String) : lineStartsOf text.toList =
    0 :: breakOffsets 0 (bytes text) ++ if EndsLine (bytes text) then [] else [(bytes text).length] := by
  have hlength : byteLength text.toList = (bytes text).length := byteLength_toList text
  have hbreaks : breaksFrom 0 text.toList = breakOffsets 0 (bytes text) := by rw [breaksFrom_eq, bytes_eq_flatMap]
  obtain ⟨start, hlast, hstart⟩ := getLast?_breakOffsets (bytes text)
  have hends : start = (bytes text).length ↔ EndsLine (bytes text) := by
    rw [← sinceBreak_eq_zero_iff]
    omega
  unfold lineStartsOf
  simp only [hbreaks, hlast, hlength, Option.some.injEq, hends]
  split_ifs
  · exact (List.append_nil _).symm
  · rfl

/-- The starts up to an offset are those behind the line breaks before it. -/
theorem lineStartsOf_split {text : String} (h : offset ≤ (bytes text).length) : lineStartsOf text.toList =
    (0 :: breakOffsets 0 ((bytes text).take offset)) ++
      (breakOffsets offset ((bytes text).drop offset) ++
        if EndsLine (bytes text) then [] else [(bytes text).length]) := by
  have hbreaks : breakOffsets 0 (bytes text) =
      breakOffsets 0 ((bytes text).take offset) ++ breakOffsets offset ((bytes text).drop offset) := by
    have hparts := breakOffsets_append 0 ((bytes text).take offset) ((bytes text).drop offset)
    rwa [List.take_append_drop, List.length_take_of_le h, Nat.zero_add] at hparts
  rw [lineStartsOf_eq, hbreaks, ← List.cons_append, List.append_assoc]

theorem lineCol?_of_split {f : SourceFile} {front back : List Nat} {start : Nat} (hsize : offset ≤ f.size)
    (hstarts : f.lineStarts = front ++ back) (hlast : front.getLast? = some start)
    (hfront : ∀ x ∈ front, x ≤ offset) (hback : ∀ x ∈ back, offset < x) :
    f.lineCol? offset = some (front.length % placeBound, column start offset) := by
  have hne : front ≠ [] := by
    rintro rfl
    cases hlast
  have hpos : 0 < front.length := List.length_pos_of_ne_nil hne
  have hentry : (front ++ back)[front.length - 1]? = some start := by
    rw [List.getElem?_append_left (by omega), ← List.getLast?_eq_getElem?, hlast]
  unfold lineCol?
  rw [if_neg (by omega), hstarts, lineIndex_append hne hfront hback]
  dsimp only
  rw [hentry, Option.map_some, Nat.sub_add_cancel hpos]

theorem column_eq {start : Nat} (hstart : start ≤ offset) (hbound : offset - start + 1 < placeBound) :
    column start offset = offset - start + 1 := by
  have hwrap : offset + placeBound - start + 1 = (offset - start + 1) + placeBound := by omega
  rw [column, hwrap, Nat.add_mod_right, Nat.mod_eq_of_lt hbound]

/-! ## Lines and columns -/

theorem size_ofText (path text : String) : (ofText path text).size = text.utf8ByteSize := byteLength_toList text

/-- The last start up to an offset lies behind the last line break before it, unless the end of the text is
one more start. -/
theorem lineCol?_inside {text : String} (path : String) (hshort : text.utf8ByteSize < placeBound)
    (h : offset < text.utf8ByteSize ∨ offset = text.utf8ByteSize ∧ EndsLine (bytes text)) :
    (ofText path text).lineCol? offset =
      some ((((bytes text).take offset).count lineBreak + 1) % placeBound, sinceBreak ((bytes text).take offset) + 1) := by
  have hlength : (bytes text).length = text.utf8ByteSize := length_bytes text
  have hle : offset ≤ (bytes text).length := by omega
  have htake : ((bytes text).take offset).length = offset := List.length_take_of_le hle
  have hsize : offset ≤ (ofText path text).size := by
    rw [size_ofText]
    omega
  obtain ⟨start, hlast, hstart⟩ := getLast?_breakOffsets ((bytes text).take offset)
  have hfront : ∀ x ∈ 0 :: breakOffsets 0 ((bytes text).take offset), x ≤ offset := by
    intro x hx
    rcases List.mem_cons.1 hx with rfl | hx
    · exact Nat.zero_le _
    · have hbounds := bounds_of_mem_breakOffsets hx
      omega
  have hback : ∀ x ∈ breakOffsets offset ((bytes text).drop offset) ++
      if EndsLine (bytes text) then [] else [(bytes text).length], offset < x := by
    intro x hx
    rcases List.mem_append.1 hx with hx | hx
    · exact (bounds_of_mem_breakOffsets hx).1
    · split_ifs at hx with hends
      · cases hx
      · rw [List.mem_singleton.1 hx]
        rcases h with hlt | ⟨-, hends'⟩
        · omega
        · exact absurd hends' hends
  have hbound : offset - start + 1 < placeBound := by
    rcases h with hlt | ⟨rfl, hends⟩
    · omega
    · -- The last line is empty, so its column is the first even if the text has the greatest length.
      rw [← hlength, List.take_length, sinceBreak_eq_zero_iff.2 hends] at hstart
      have hcolumns : 1 < placeBound := by decide
      omega
  rw [lineCol?_of_split hsize (lineStartsOf_split hle) hlast hfront hback, List.length_cons, length_breakOffsets,
    column_eq (by omega) hbound]
  congr 2
  omega

/-- The end of a text whose last line is not ended is listed as one more start. -/
theorem lineCol?_at_end {text : String} (path : String) (hopen : ¬ EndsLine (bytes text)) :
    (ofText path text).lineCol? text.utf8ByteSize = some (((bytes text).count lineBreak + 2) % placeBound, 1) := by
  have hlength : (bytes text).length = text.utf8ByteSize := length_bytes text
  have hsize : text.utf8ByteSize ≤ (ofText path text).size := Nat.le_of_eq (size_ofText path text).symm
  have hstarts : (ofText path text).lineStarts =
      (0 :: breakOffsets 0 (bytes text) ++ [text.utf8ByteSize]) ++ [] := by
    rw [List.append_nil, ← hlength]
    exact (lineStartsOf_eq text).trans (by rw [if_neg hopen])
  have hfront : ∀ x ∈ 0 :: breakOffsets 0 (bytes text) ++ [text.utf8ByteSize], x ≤ text.utf8ByteSize := by
    intro x hx
    rcases List.mem_append.1 hx with hx | hx
    · rcases List.mem_cons.1 hx with rfl | hx
      · exact Nat.zero_le _
      · have hbounds := bounds_of_mem_breakOffsets hx
        omega
    · exact Nat.le_of_eq (List.mem_singleton.1 hx)
  have hcolumns : 1 < placeBound := by decide
  rw [lineCol?_of_split hsize hstarts List.getLast?_concat hfront nofun, List.length_append, List.length_cons,
    length_breakOffsets, List.length_singleton, column_eq (Nat.le_refl _) (by omega), Nat.sub_self]

/-- Before the end of a text its lines are counted by the line breaks before an offset, and its columns by the
bytes since the last of these; and so they are at the end, if the last line is ended, though there the number
of the line may wrap round. The end of a text whose last line is not ended counts as a line of its own.
Behind the end there are no lines. -/
theorem lineCol_exact (path text : String) (hshort : text.utf8ByteSize < placeBound) (offset : Nat) :
    let before := (bytes text).take offset
    (offset < text.utf8ByteSize →
      (ofText path text).lineCol? offset = some (before.count lineBreak + 1, sinceBreak before + 1)) ∧
    (offset = text.utf8ByteSize ∧ EndsLine (bytes text) →
      (ofText path text).lineCol? offset = some ((before.count lineBreak + 1) % placeBound, sinceBreak before + 1)) ∧
    (offset = text.utf8ByteSize ∧ ¬ EndsLine (bytes text) →
      (ofText path text).lineCol? offset = some ((before.count lineBreak + 2) % placeBound, 1)) ∧
    (text.utf8ByteSize < offset → (ofText path text).lineCol? offset = none) := by
  refine ⟨fun h => ?_, fun h => lineCol?_inside path hshort (Or.inr h), ?_, fun h => ?_⟩
  · have hcount : ((bytes text).take offset).count lineBreak ≤ offset :=
      Nat.le_trans List.count_le_length (List.length_take_le offset (bytes text))
    have hline : ((bytes text).take offset).count lineBreak + 1 < placeBound := by omega
    rw [lineCol?_inside path hshort (Or.inl h), Nat.mod_eq_of_lt hline]
  · rintro ⟨rfl, hopen⟩
    have hall : (bytes text).take text.utf8ByteSize = bytes text := List.take_length
    rw [lineCol?_at_end path hopen, hall]
  · rw [lineCol?, size_ofText, if_pos h]

/-- Two lines of which the second is not ended: the start of the second, and a place behind the end. -/
theorem lineCol_exact_open :
    "type A\ntype B".utf8ByteSize < placeBound ∧
      (ofText "a.taxi" "type A\ntype B").lineCol? 9 = some (2, 3) ∧
      (ofText "a.taxi" "type A\ntype B").lineCol? 14 = none := by
  have hshort : "type A\ntype B".utf8ByteSize < placeBound := by decide +kernel
  obtain ⟨hinside, -⟩ := lineCol_exact "a.taxi" "type A\ntype B" hshort 9
  obtain ⟨-, -, -, hbehind⟩ := lineCol_exact "a.taxi" "type A\ntype B" hshort 14
  have hplace := hinside (by decide +kernel)
  exact ⟨hshort, hplace.trans (by decide +kernel), hbehind (by decide +kernel)⟩

/-- The end of the same text is said to lie on a third line, which the text does not have: it is six bytes
behind the only line break. -/
theorem lineCol_open_end :
    let f := ofText "a.taxi" "type A\ntype B"
    f.lineCol? 13 = some (3, 1) ∧ f.lineCount = 2 ∧ f.lineRange? 3 = none ∧
      ((bytes "type A\ntype B").take 13).count lineBreak + 1 = 2 ∧
      sinceBreak ((bytes "type A\ntype B").take 13) + 1 = 7 := by
  decide +kernel

end SemanticSchema.SourceFile
