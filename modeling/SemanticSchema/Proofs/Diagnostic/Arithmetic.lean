import Mathlib.Data.List.Forall2
import SemanticSchema.Proofs.Diagnostic.Rendered

/-!
# The arithmetic of a rendered diagnostic

A place is rendered with a few subtractions (the start of a line from an offset, one from the number of a line,
from a column and from where the search among the starts of lines ends) and by bringing the length of its span
between two bounds. Here each of these steps may fail. Over files with the table of their own text none does, and
the markers below a line stop where the line does, unless the first of them already stands behind it.

* `ArithmeticFault`, `checkedSub`, `checkedClamp` : steps that fail where they have no result;
* `SourceFile.checkedLineCol`, `Diagnostic.checkedRender` : places and diagnostics by such steps;
* `SourceFile.lineIndex_cases` : the search stays at the first start or finds one that is not behind the offset;
* `SourceFile.checkedLineCol_eq`, `SourceFile.checkedLineText_eq`, `Diagnostic.checkedUnderline_eq` : when they succeed;
* `Diagnostic.markedRow` : some markers and what stands beside them;
* `Diagnostic.render_in_bounds` : rendering succeeds, and where the markers are.
-/

set_option autoImplicit false

namespace SemanticSchema

/-! ## Steps that may fail -/

/-- Why a step of arithmetic has no result. -/
inductive ArithmeticFault where
  | belowZero
  | crossedBounds
deriving DecidableEq

/-- The difference of two numbers, of which the second may not be greater. -/
def checkedSub (a b : Nat) : Except ArithmeticFault Nat :=
  if b ≤ a then .ok (a - b) else .error .belowZero

/-- The number between two bounds that is next to `n`; the bounds may not lie crosswise. -/
def checkedClamp (n low high : Nat) : Except ArithmeticFault Nat :=
  if low ≤ high then .ok (max low (min n high)) else .error .crossedBounds

namespace SourceFile

open Text

/-! ## Lines and columns -/

/-- Where the search for an offset ends: at its entry or else, as an error, at the place of the first greater one. -/
def searchStarts (starts : List Nat) (offset : Nat) : Except Nat Nat :=
  let i := lineIndex starts offset 0 starts.length
  if starts = [] then .error 0
  else if starts.getD i 0 = offset then .ok i
  else if starts.getD i 0 < offset then .error (i + 1)
  else .error i

/-- The place in the table at which the line of an offset starts. -/
def checkedIndex (starts : List Nat) (offset : Nat) : Except ArithmeticFault Nat :=
  match searchStarts starts offset with
  | .ok i => .ok i
  | .error i => checkedSub (max i 1) 1

/-- Line and column of an offset that is not behind the end of the text. -/
def checkedLineCol (f : SourceFile) (offset : Nat) : Except ArithmeticFault (Option (Nat × Nat)) :=
  if f.size < offset then .ok none
  else do
    let i ← checkedIndex f.lineStarts offset
    match f.lineStarts[i]? with
    | none => return none
    | some start =>
      let behind ← checkedSub offset start
      return some ((i + 1) % placeBound, (behind + 1) % placeBound)

/-- The bytes of a line, its line break included. -/
def checkedLineRange (f : SourceFile) (line : Nat) : Except ArithmeticFault (Option (Nat × Nat)) :=
  if line = 0 then .ok none
  else do
    let i ← checkedSub line 1
    match f.lineStarts[i]?, f.lineStarts[i + 1]? with
    | some start, some stop => return some (start, stop)
    | _, _ => return none

/-- The text of a line without its line break. -/
def checkedLineText (f : SourceFile) (line : Nat) : Except ArithmeticFault (Option String) := do
  let range? ← f.checkedLineRange line
  return range?.bind fun range =>
    (sliceBytes? f.text.toList range.1 range.2).map fun cs => String.ofList (trimBreaks cs)

variable {f : SourceFile} {starts : List Nat} {offset : Nat}

/-- The search ends at the place that it began with or at a start that is not behind the offset. -/
theorem lineIndex_cases (starts : List Nat) (offset base width : Nat) :
    lineIndex starts offset base width = base ∨ starts.getD (lineIndex starts offset base width) 0 ≤ offset := by
  induction base, width using lineIndex.induct starts offset with
  | case1 base width hsmall =>
    rw [lineIndex, if_pos hsmall]
    exact Or.inl rfl
  | case2 base width hlarge ih =>
    rw [lineIndex, if_neg hlarge]
    by_cases hbehind : offset < starts.getD (base + width / 2) 0
    · simp only [dif_pos hbehind, if_pos hbehind] at ih ⊢
      exact ih
    · simp only [dif_neg hbehind, if_neg hbehind] at ih ⊢
      -- the middle is the new place to begin with, and has just been compared
      refine Or.inr (ih.elim (fun hmiddle => ?_) id)
      rw [hmiddle]
      exact Nat.le_of_not_lt hbehind

/-- One step back from where an offset would have to be inserted is the start at which the search ended. -/
theorem checkedIndex_eq (starts : List Nat) (offset : Nat) :
    checkedIndex starts offset = .ok (lineIndex starts offset 0 starts.length) := by
  have hcases := lineIndex_cases starts offset 0 starts.length
  unfold checkedIndex searchStarts
  dsimp only
  by_cases hnil : starts = []
  · rw [if_pos hnil, hnil, List.length_nil, lineIndex, if_pos (Nat.zero_le 1)]
    rfl
  rw [if_neg hnil]
  split_ifs with hentry hbefore
  · rfl
  · exact (if_pos (Nat.le_max_right _ _)).trans (by rw [Nat.max_eq_left (by omega), Nat.add_sub_cancel])
  · -- every start is behind the offset, so that nothing lies before the first
    have hfirst : lineIndex starts offset 0 starts.length = 0 := by omega
    rw [hfirst]
    rfl

/-- No start is subtracted from an offset before it, in a table that begins with 0. -/
theorem checkedLineCol_eq (hfirst : f.lineStarts.head? = some 0) (offset : Nat) :
    f.checkedLineCol offset = .ok (f.lineCol? offset) := by
  have hcases := lineIndex_cases f.lineStarts offset 0 f.lineStarts.length
  unfold checkedLineCol lineCol?
  split
  case isTrue => rfl
  case isFalse =>
    rw [checkedIndex_eq]
    dsimp only [bind, Except.bind]
    cases hentry : f.lineStarts[lineIndex f.lineStarts offset 0 f.lineStarts.length]? with
    | none => rfl
    | some start =>
      have hle : start ≤ offset := by
        rw [List.getD_eq_getElem?_getD, hentry, Option.getD_some] at hcases
        rcases hcases with hzero | hle
        · rw [hzero, ← List.head?_eq_getElem?, hfirst] at hentry
          cases hentry
          exact Nat.zero_le offset
        · exact hle
      have hcolumn : column start offset = (offset - start + 1) % placeBound := by
        have hwrap : offset + placeBound - start + 1 = (offset - start + 1) + placeBound := by omega
        rw [column, hwrap, Nat.add_mod_right]
      have hsub : checkedSub offset start = .ok (offset - start) := if_pos hle
      dsimp only
      rw [hsub, Option.map_some, hcolumn]
      rfl

/-- A table that was stored with a file may begin behind the offset. -/
example : (SourceFile.mk "a.taxi" "type A" [3]).checkedLineCol 0 = .error .belowZero := by decide +kernel

theorem checkedLineRange_eq (f : SourceFile) (line : Nat) : f.checkedLineRange line = .ok (f.lineRange? line) := by
  cases line with
  | zero => rfl
  | succ i =>
    have hsub : checkedSub (i + 1) 1 = .ok i := if_pos (Nat.le_add_left 1 i)
    rw [checkedLineRange, if_neg (Nat.succ_ne_zero i), hsub, lineRange?]
    dsimp only [bind, Except.bind]
    cases f.lineStarts[i]? <;> cases f.lineStarts[i + 1]? <;> rfl

theorem checkedLineText_eq (f : SourceFile) (line : Nat) : f.checkedLineText line = .ok (f.lineText? line) := by
  rw [checkedLineText, checkedLineRange_eq]
  rfl

theorem head?_lineStarts_ofText (path text : String) : (ofText path text).lineStarts.head? = some 0 := by
  rw [lineStarts_ofText, head?_startsFrom]

/-- Columns are counted from 1. -/
theorem col_pos_of_lineCol? {path text : String} {line col : Nat} (hshort : text.utf8ByteSize < placeBound)
    (hplace : (ofText path text).lineCol? offset = some (line, col)) : 0 < col := by
  rcases Nat.lt_trichotomy offset text.utf8ByteSize with hinside | rfl | hbehind
  · rw [lineCol?_inside path hshort (Or.inl hinside)] at hplace
    cases hplace
    exact Nat.succ_pos _
  · rw [lineCol?_of_size] at hplace
    cases hplace
    exact Nat.one_pos
  · rw [lineCol?, size_ofText, if_pos hbehind] at hplace
    cases hplace

end SourceFile

namespace Diagnostic

open Text SourceFile

/-! ## Rows of markers -/

/-- A row with some blanks, `count` markers and the message of a label, behind a gutter of six characters. -/
def markedRow (blanks count : Nat) (label : Option String) : String :=
  let markers (mark : Char) := String.ofList (List.replicate blanks ' ') ++ String.ofList (List.replicate count mark)
  match label with
  | none => "    | " ++ markers '^' ++ "\n"
  | some message => "    | " ++ markers '-' ++ " " ++ message ++ "\n"

theorem underline_eq (length lineLength col : Nat) (label : Option String) :
    underline length lineLength col label = markedRow (col - 1) (markerCount length lineLength col) label := rfl

/-- The row of markers below a line. -/
def checkedUnderline (length lineLength col : Nat) (label : Option String) : Except ArithmeticFault String := do
  let before ← checkedSub col 1
  let count ← checkedClamp length 1 (max (lineLength - before) 1)
  let blanks ← checkedSub col 1
  return markedRow blanks count label

theorem checkedUnderline_eq {col : Nat} (hcol : 0 < col) (length lineLength : Nat) (label : Option String) :
    checkedUnderline length lineLength col label = .ok (underline length lineLength col label) := by
  have hbefore : checkedSub col 1 = .ok (col - 1) := if_pos hcol
  have hcount : checkedClamp length 1 (max (lineLength - (col - 1)) 1) = .ok (markerCount length lineLength col) := by
    rw [checkedClamp, if_pos (Nat.le_max_right _ _), markerCount]
    congr 1
    omega
  rw [checkedUnderline, hbefore, underline_eq]
  dsimp only [bind, Except.bind]
  rw [hcount]
  rfl

/-- The last marker stands below the end of the line, or is the only one. -/
theorem markers_le {col : Nat} (hcol : 0 < col) (length lineLength : Nat) :
    col - 1 + markerCount length lineLength col ≤ max lineLength col := by
  unfold markerCount
  omega

/-! ## Places -/

/-- A source line behind its number. -/
def sourceRows (line : Nat) (text : String) : String :=
  "   |\n" ++ padNumber ' ' 3 line ++ " | " ++ text ++ "\n"

/-- The place of a diagnostic or, with a message, of one of its labels. -/
def checkedPlace (sources : SourceSet) (span : Span) (label : Option String) : Except ArithmeticFault String :=
  match sources.file? span with
  | none => .ok (unplaced label)
  | some f => do
    match ← f.checkedLineCol span.start with
    | none => return unplaced label
    | some (line, col) =>
      match ← f.checkedLineText line with
      | none => return placeRow f.path line col
      | some text =>
        let row ← checkedUnderline span.length (byteLength text.toList) col label
        return placeRow f.path line col ++ (sourceRows line text ++ row)

variable {sources : SourceSet} {span : Span} {f : SourceFile} {line col : Nat} {text : String}

/-- How a place is written: with its message alone where there is no line and column, by its line and column alone
where the line has no text, and otherwise with the line and the markers below it. Behind the gutter of their row the
markers stand in the columns from `col` up to `col - 1 + count`. -/
inductive Written (sources : SourceSet) (span : Span) (label : Option String) : String → Prop where
  | unplaced (hplace : sources.lineCol? span = none) : Written sources span label (unplaced label)
  | unlined {f : SourceFile} {line col : Nat} (hf : sources.file? span = some f)
      (hplace : f.lineCol? span.start = some (line, col)) (htext : f.lineText? line = none) :
      Written sources span label (placeRow f.path line col)
  | underlined {f : SourceFile} {line col : Nat} {text : String} {count : Nat} (hf : sources.file? span = some f)
      (hplace : f.lineCol? span.start = some (line, col)) (htext : f.lineText? line = some text)
      (hfirst : 0 < col) (hcount : 0 < count) (hlast : col - 1 + count ≤ max text.utf8ByteSize col) :
      Written sources span label
        (placeRow f.path line col ++ (sourceRows line text ++ markedRow (col - 1) count label))

theorem renderPlace_unlined (hf : sources.file? span = some f) (hplace : f.lineCol? span.start = some (line, col))
    (htext : f.lineText? line = none) (label : Option String) :
    renderPlace sources span label = placeRow f.path line col := by
  rw [renderPlace_of_some hf hplace, htext, Option.elim_none, String.append_empty]

theorem renderPlace_underlined (hf : sources.file? span = some f)
    (hplace : f.lineCol? span.start = some (line, col)) (htext : f.lineText? line = some text)
    (label : Option String) : renderPlace sources span label =
      placeRow f.path line col ++
        (sourceRows line text ++ underline span.length (byteLength text.toList) col label) := by
  rw [renderPlace_of_some hf hplace, htext, Option.elim_some]
  rfl

/-- Every place is rendered without a fault, in one of the three ways. -/
theorem checkedPlace_written (hfresh : sources.Fresh) (span : Span) (label : Option String) :
    checkedPlace sources span label = .ok (renderPlace sources span label) ∧
      Written sources span label (renderPlace sources span label) := by
  unfold checkedPlace
  cases hf : sources.file? span with
  | none =>
    have hnone : sources.lineCol? span = none := by rw [SourceSet.lineCol?, hf, Option.bind_none]
    rw [renderPlace_of_none hnone]
    exact ⟨rfl, .unplaced hnone⟩
  | some f =>
    obtain ⟨path, text, rfl, hshort⟩ := hfresh.of_file? hf
    dsimp only
    rw [checkedLineCol_eq (head?_lineStarts_ofText path text)]
    cases hplace : (ofText path text).lineCol? span.start with
    | none =>
      have hnone : sources.lineCol? span = none := by rw [SourceSet.lineCol?, hf, Option.bind_some, hplace]
      rw [renderPlace_of_none hnone]
      exact ⟨rfl, .unplaced hnone⟩
    | some place =>
      obtain ⟨line, col⟩ := place
      dsimp only [bind, Except.bind]
      rw [checkedLineText_eq]
      cases htext : (ofText path text).lineText? line with
      | none =>
        rw [renderPlace_unlined hf hplace htext]
        exact ⟨rfl, .unlined hf hplace htext⟩
      | some shown =>
        have hfirst : 0 < col := col_pos_of_lineCol? hshort hplace
        have hlast := markers_le hfirst span.length shown.utf8ByteSize
        dsimp only
        rw [checkedUnderline_eq hfirst, renderPlace_underlined hf hplace htext, underline_eq, byteLength_toList]
        exact ⟨rfl, .underlined hf hplace htext hfirst (markerCount_pos _ _ _) hlast⟩

/-! ## Diagnostics -/

/-- The places of a diagnostic in the order in which they are written, those of labels with their messages. -/
def places (d : Diagnostic) : List (Span × Option String) :=
  (d.span, none) :: d.labels.map fun l => (l.span, some l.message)

/-- The notes, each on a row of its own. -/
def noteRows (d : Diagnostic) : String := String.join (d.notes.map fun note => "   = note: " ++ note ++ "\n")

/-- The header, the places and the notes. -/
def checkedRender (sources : SourceSet) (d : Diagnostic) : Except ArithmeticFault String := do
  let parts ← d.places.mapM fun place => checkedPlace sources place.1 place.2
  return d.header ++ String.join parts ++ d.noteRows

theorem render_eq_places (sources : SourceSet) (d : Diagnostic) : d.render sources =
    d.header ++ String.join (d.places.map fun place => renderPlace sources place.1 place.2) ++ d.noteRows := by
  rw [places, List.map_cons, List.map_map, String.join_cons, ← String.append_assoc]
  rfl

theorem checkedRender_eq (hfresh : sources.Fresh) (d : Diagnostic) :
    d.checkedRender sources = .ok (d.render sources) := by
  have hplaces : (fun place : Span × Option String => checkedPlace sources place.1 place.2) =
      fun place => pure (renderPlace sources place.1 place.2) :=
    funext fun place => (checkedPlace_written hfresh place.1 place.2).1
  rw [checkedRender, hplaces, List.mapM_pure, render_eq_places]
  rfl

/-- Over files with texts that are short enough for their places to be counted, a diagnostic is rendered without a
subtraction below zero and without bounds that lie crosswise, whatever its spans. Below a line of `n` bytes the
markers start in the column `c` of the place, there is at least one, and the last stands in a column up to the
greater of `n` and `c`. -/
theorem render_in_bounds (files : List (String × String)) (hshort : ∀ file ∈ files, file.2.utf8ByteSize < placeBound)
    (d : Diagnostic) :
    let sources := SourceSet.ofFiles files
    d.checkedRender sources = .ok (d.render sources) ∧
    ∃ parts, d.render sources = d.header ++ String.join parts ++ d.noteRows ∧
      List.Forall₂ (fun place part => Written sources place.1 place.2 part) d.places parts := by
  intro sources
  have hfresh : sources.Fresh := SourceSet.fresh_ofFiles hshort
  refine ⟨checkedRender_eq hfresh d, _, render_eq_places sources d, ?_⟩
  rw [List.forall₂_map_right_iff, List.forall₂_same]
  exact fun place _ => (checkedPlace_written hfresh place.1 place.2).2

/-- A span that ends before it starts, on the second byte of a line break, and a label that starts on the second byte
of a letter and goes on behind the end of the text. -/
theorem render_in_bounds_accented :
    let files := [("a.taxi", "aé\r\n")]
    let d : Diagnostic := ⟨.unresolvedType, .error, ⟨0, 4, 1, 1⟩, "m", [⟨⟨0, 2, 100, 1⟩, "here"⟩], []⟩
    (∀ file ∈ files, file.2.utf8ByteSize < placeBound) ∧ d.checkedRender (SourceSet.ofFiles files) = .ok
      ("error[E0001]: unresolved type: m\n  --> a.taxi:1:5\n   |\n  1 | aé\n    |     ^\n" ++
        "  --> a.taxi:1:3\n   |\n  1 | aé\n    |   - here\n") := by
  intro files d
  have hshort : ∀ file ∈ files, file.2.utf8ByteSize < placeBound := by decide +kernel
  obtain ⟨hchecked, -⟩ := render_in_bounds files hshort d
  exact ⟨hshort, hchecked.trans (congrArg Except.ok (by decide +kernel))⟩

end Diagnostic

end SemanticSchema
