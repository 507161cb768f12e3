import Mathlib.Data.List.Infix
import SemanticSchema.Diagnostic.Render
import SemanticSchema.Proofs.Source.Cut

/-!
# What a rendered diagnostic shows

* `SourceSet.startsAtEnd` : whether a span starts at the end of its file, where a place is written without a line;
* `Diagnostic.renderPlace_of_none`, `Diagnostic.renderPlace_of_some` : a place without and with line and column;
* `Diagnostic.render_shows` : the notes and the labels that are shown;
* `Diagnostic.gutter` : what stands before the text of a source row;
* `Diagnostic.exists_rows_of_cut` : the row of a line, and the markers in the row below;
* `Diagnostic.render_underlines` : where the markers stand.
-/

set_option autoImplicit false

namespace SemanticSchema

open Text SourceFile

/-- Whether a span starts at the end of its file. -/
def SourceSet.startsAtEnd (sources : SourceSet) (span : Span) : Bool :=
  (sources.file? span).any fun f => span.start == f.size

namespace Diagnostic

variable {sources : SourceSet} {span : Span} {f : SourceFile}

/-! ## Places -/

/-- What is written of a place without line and column. -/
def unplaced : Option String → String
  | none => ""
  | some message => "   = " ++ message ++ "\n"

/-- The row that names a place. -/
def placeRow (path : String) (line col : Nat) : String :=
  "  --> " ++ path ++ ":" ++ toString line ++ ":" ++ toString col ++ "\n"

theorem renderPlace_of_none (hplace : sources.lineCol? span = none) (label : Option String) :
    renderPlace sources span label = unplaced label := by
  unfold renderPlace
  rw [hplace]
  cases sources.file? span <;> cases label <;> rfl

theorem renderPlace_of_some {line col : Nat} (hf : sources.file? span = some f)
    (hplace : f.lineCol? span.start = some (line, col)) (label : Option String) :
    renderPlace sources span label = placeRow f.path line col ++
      (f.lineText? line).elim "" fun text => renderLine text span.length line col label := by
  have hplace' : sources.lineCol? span = some (line, col) := by rw [SourceSet.lineCol?, hf, Option.bind_some, hplace]
  unfold renderPlace
  rw [hf, hplace']
  cases hline : f.lineText? line <;> simp only [hline, Option.elim, placeRow]

theorem infix_underline (length lineLength col : Nat) (message : String) :
    message.toList <:+: (underline length lineLength col (some message)).toList := by
  simp only [underline, String.toList_append]
  exact ⟨_, _, rfl⟩

theorem infix_renderLine (text : String) (length line col : Nat) (message : String) :
    message.toList <:+: (renderLine text length line col (some message)).toList := by
  rw [renderLine, String.toList_append]
  exact (infix_underline ..).trans (List.suffix_append ..).isInfix

/-- At the end of a file the place of a label is all that is written of it. -/
theorem renderPlace_at_end (hfresh : sources.Fresh) (hend : sources.startsAtEnd span) (label label' : Option String) :
    renderPlace sources span label = renderPlace sources span label' := by
  cases hf : sources.file? span with
  | none => rw [SourceSet.startsAtEnd, hf] at hend; cases hend
  | some f =>
    obtain ⟨path, text, rfl, hshort⟩ := hfresh.of_file? hf
    rw [SourceSet.startsAtEnd, hf, Option.any_some, beq_iff_eq, size_ofText] at hend
    have hplace := lineCol?_of_size path text
    rw [← hend] at hplace
    rw [renderPlace_of_some hf hplace, renderPlace_of_some hf hplace, lineText?_of_size path hshort,
      Option.elim_none, Option.elim_none]

/-- Away from the end of a file the message of a label is written, whatever its span. -/
theorem infix_renderPlace (hfresh : sources.Fresh) (hend : sources.startsAtEnd span = false) (message : String) :
    message.toList <:+: (renderPlace sources span (some message)).toList := by
  have hwithout (hplace : sources.lineCol? span = none) :
      message.toList <:+: (renderPlace sources span (some message)).toList := by
    rw [renderPlace_of_none hplace, unplaced, String.toList_append, String.toList_append]
    exact ⟨_, _, rfl⟩
  cases hf : sources.file? span with
  | none => exact hwithout (by rw [SourceSet.lineCol?, hf, Option.bind_none])
  | some f =>
    obtain ⟨path, text, rfl, hshort⟩ := hfresh.of_file? hf
    rw [SourceSet.startsAtEnd, hf, Option.any_some, beq_eq_false_iff_ne, size_ofText] at hend
    rcases Nat.lt_or_gt_of_ne hend with hinside | hbehind
    · rw [← byteLength_toList, ← flatten_linesOf text.toList] at hinside
      obtain ⟨before, line, after, hcut, hle, hlt⟩ := exists_cut hinside
      rw [renderPlace_of_some hf (lineCol?_of_cut path hshort hcut hle hlt), lineText?_of_cut path hcut,
        Option.elim_some, String.toList_append]
      exact (infix_renderLine ..).trans (List.suffix_append ..).isInfix
    · refine hwithout ?_
      rw [SourceSet.lineCol?, hf, Option.bind_some, lineCol?, if_pos (by rwa [size_ofText])]

/-! ## Labels and notes -/

theorem infix_join {parts : List String} {part : String} (h : part ∈ parts) :
    part.toList <:+: (String.join parts).toList := by
  rw [String.toList_join, List.flatMap_def]
  exact List.infix_of_mem_flatten (List.mem_map_of_mem h)

theorem toList_render (sources : SourceSet) (d : Diagnostic) : (d.render sources).toList =
    (d.header ++ renderPlace sources d.span none).toList ++
      ((String.join (d.labels.map fun l => renderPlace sources l.span (some l.message))).toList ++
        (String.join (d.notes.map fun note => "   = note: " ++ note ++ "\n")).toList) := by
  rw [render, String.toList_append, String.toList_append, List.append_assoc]

theorem infix_render_of_note {d : Diagnostic} {note : String} (h : note ∈ d.notes) :
    note.toList <:+: (d.render sources).toList := by
  have hpart : note.toList <:+: ("   = note: " ++ note ++ "\n").toList := by
    rw [String.toList_append, String.toList_append]
    exact List.infix_append ..
  have hmem : "   = note: " ++ note ++ "\n" ∈ d.notes.map fun note => "   = note: " ++ note ++ "\n" :=
    List.mem_map_of_mem h
  rw [toList_render]
  refine (hpart.trans (infix_join hmem)).trans (List.IsSuffix.isInfix ?_)
  exact (List.suffix_append _ _).trans (List.suffix_append _ _)

theorem infix_render_of_label {d : Diagnostic} {l : Label} (h : l ∈ d.labels)
    (hshown : l.message.toList <:+: (renderPlace sources l.span (some l.message)).toList) :
    l.message.toList <:+: (d.render sources).toList := by
  have hmem : renderPlace sources l.span (some l.message) ∈
      d.labels.map fun l => renderPlace sources l.span (some l.message) := List.mem_map_of_mem h
  rw [toList_render]
  exact (hshown.trans (infix_join hmem)).trans (List.infix_append' _ _ _)

/-- Every note is shown, and every label that does not start at the end of its file, whatever its span. What
the other labels say is not written at all. -/
theorem render_shows (files : List (String × String)) (hshort : ∀ file ∈ files, file.2.utf8ByteSize < placeBound)
    (d : Diagnostic) :
    let sources := SourceSet.ofFiles files
    (∀ note ∈ d.notes, note.toList <:+: (d.render sources).toList) ∧
    (∀ l ∈ d.labels, sources.startsAtEnd l.span = false → l.message.toList <:+: (d.render sources).toList) ∧
    ∀ reword : String → String,
      let reworded := d.labels.map fun l =>
        if sources.startsAtEnd l.span then { l with message := reword l.message } else l
      ({ d with labels := reworded }).render sources = d.render sources := by
  have hfresh := SourceSet.fresh_ofFiles hshort
  refine ⟨fun note hnote => infix_render_of_note hnote,
    fun l hl hend => infix_render_of_label hl (infix_renderPlace hfresh hend l.message), fun reword => ?_⟩
  have hplaces : (d.labels.map fun l =>
        if (SourceSet.ofFiles files).startsAtEnd l.span then { l with message := reword l.message } else l).map
      (fun l => renderPlace (SourceSet.ofFiles files) l.span (some l.message)) =
      d.labels.map fun l => renderPlace (SourceSet.ofFiles files) l.span (some l.message) := by
    rw [List.map_map]
    refine List.map_congr_left fun l _ => ?_
    rw [Function.comp_apply]
    split
    case isTrue hend => exact renderPlace_at_end hfresh hend _ _
    case isFalse => rfl
  simp only [render, header, hplaces]

/-- A label behind the end of a text, one on its only line, and a note. -/
theorem render_shows_label_behind :
    let files := [("a.taxi", "type A")]
    let behind : Label := ⟨⟨0, 9, 9, 1⟩, "behind"⟩
    let here : Label := ⟨⟨0, 5, 6, 1⟩, "here"⟩
    let d : Diagnostic := ⟨.unresolvedType, .error, ⟨0, 0, 4, 1⟩, "m", [behind, here], ["a note"]⟩
    (∀ file ∈ files, file.2.utf8ByteSize < placeBound) ∧
      "a note".toList <:+: (d.render (SourceSet.ofFiles files)).toList ∧
      behind.message.toList <:+: (d.render (SourceSet.ofFiles files)).toList ∧
      here.message.toList <:+: (d.render (SourceSet.ofFiles files)).toList := by
  intro files behind here d
  have hshort : ∀ file ∈ files, file.2.utf8ByteSize < placeBound := by decide +kernel
  obtain ⟨hnotes, hlabels, -⟩ := render_shows files hshort d
  have hnote : "a note" ∈ d.notes := List.mem_cons_self
  have hbehind : behind ∈ d.labels := List.mem_cons_self
  have hhere : here ∈ d.labels := List.mem_cons_of_mem _ List.mem_cons_self
  exact ⟨hshort, hnotes _ hnote, hlabels _ hbehind (by decide +kernel), hlabels _ hhere (by decide +kernel)⟩

/-- A label at the end of a text that ends with a line break, and one at the end of a text without characters:
only their places are written. -/
theorem render_drops_label_at_end :
    let sources := SourceSet.ofFiles [("a.taxi", "type A\n"), ("b.taxi", "")]
    let there : List Label := [⟨⟨0, 7, 7, 2⟩, "declared here"⟩, ⟨⟨1, 0, 0, 1⟩, "or there"⟩]
    let d : Diagnostic := ⟨.unresolvedType, .error, ⟨0, 0, 4, 1⟩, "m", there, []⟩
    d.render sources =
        "error[E0001]: unresolved type: m\n  --> a.taxi:1:1\n   |\n  1 | type A\n    | ^^^^\n" ++
          "  --> a.taxi:2:1\n  --> b.taxi:1:1\n" ∧
      ¬ "declared here".toList <:+: (d.render sources).toList ∧
      ¬ "or there".toList <:+: (d.render sources).toList := by
  decide +kernel

/-! ## Source rows and the rows below them -/

/-- What stands before the text of a source row: the number of its line, filled up to three characters. -/
def gutter (number : Nat) : List Char := (padNumber ' ' 3 number ++ " | ").toList

theorem gutter_eq (number : Nat) : gutter number =
    List.replicate (3 - (toString number).length) ' ' ++ ((toString number).toList ++ [' ', '|', ' ']) := by
  have hbar : " | ".toList = [' ', '|', ' '] := by decide
  rw [gutter, padNumber, String.toList_append, String.toList_append, String.toList_ofList, hbar, List.append_assoc]

/-- Up to three digits, the gutter is as wide as it is written in the row below. -/
theorem length_gutter_eq_iff (number : Nat) : (gutter number).length = 6 ↔ number < 1000 := by
  have hdigits : (toString number).length ≤ 3 ↔ number < 1000 := by
    rw [Nat.toString_eq_repr, ← String.length_toList, Nat.toList_repr]
    exact Nat.length_toDigits_le_iff (by decide) (by decide)
  rw [gutter_eq, List.length_append, List.length_append, List.length_replicate, String.length_toList]
  change 3 - (toString number).length + ((toString number).length + 3) = 6 ↔ _
  omega

theorem break_notMem_gutter (number : Nat) : '\n' ∉ gutter number := by
  rw [gutter_eq, List.mem_append, List.mem_append]
  rintro (h | h | h)
  · exact absurd (List.eq_of_mem_replicate h) (by decide)
  · rw [Nat.toString_eq_repr, Nat.toList_repr] at h
    exact absurd (Nat.isDigit_of_mem_toDigits (by decide) (by decide) h) (by decide)
  · exact absurd h (by decide)

/-- The markers of a place, `k` columns behind the gutter. -/
def markerRow (k count : Nat) : List Char :=
  [' ', ' ', ' ', ' ', '|', ' '] ++ (List.replicate k ' ' ++ List.replicate count '^')

theorem break_notMem_markerRow (k count : Nat) : '\n' ∉ markerRow k count := by
  rw [markerRow, List.mem_append, List.mem_append]
  rintro (h | h | h)
  · exact absurd h (by decide)
  · exact absurd (List.eq_of_mem_replicate h) (by decide)
  · exact absurd (List.eq_of_mem_replicate h) (by decide)

theorem findIdx?_markerRow {k count : Nat} (h : 0 < count) :
    (markerRow k count).findIdx? (· == '^') = some (6 + k) := by
  have hgutter : [' ', ' ', ' ', ' ', '|', ' '].findIdx? (· == '^') = none := by decide
  have hblanks : (List.replicate k ' ').findIdx? (· == '^') = none := by
    simp [List.findIdx?_replicate]
  have hmarkers : (List.replicate count '^').findIdx? (· == '^') = some 0 := by
    simp [List.findIdx?_replicate, h]
  rw [markerRow, List.findIdx?_append, List.findIdx?_append, hgutter, hblanks, hmarkers, List.length_replicate]
  change some (0 + k + 6) = _
  congr 1
  omega

theorem markerCount_pos (length lineLength col : Nat) : 0 < markerCount length lineLength col := by
  unfold markerCount
  omega

theorem toList_renderLine (text : String) (length line col : Nat) :
    (renderLine text length line col none).toList = "   |".toList ++ '\n' ::
      ((gutter line ++ text.toList) ++ '\n' ::
        (markerRow (col - 1) (markerCount length (byteLength text.toList) col) ++ ['\n'])) := by
  have hrule : "   |\n".toList = "   |".toList ++ ['\n'] := by decide
  have hbreak : "\n".toList = ['\n'] := by decide
  have hgutter : "    | ".toList = [' ', ' ', ' ', ' ', '|', ' '] := by decide
  simp only [renderLine, underline, gutter, markerRow, String.toList_append, String.toList_ofList, hrule, hbreak,
    hgutter, List.append_assoc, List.cons_append, List.nil_append]

/-- Two rows without line breaks, one below the other, are rows of whatever they are written in. -/
theorem splitOn_rows {row row' : List Char} (hrow : '\n' ∉ row) (hrow' : '\n' ∉ row') (above below : List Char) :
    (above ++ '\n' :: (row ++ '\n' :: (row' ++ '\n' :: below))).splitOn '\n' =
      above.splitOn '\n' ++ row :: row' :: below.splitOn '\n' := by
  rw [List.splitOn_append_cons_self, List.splitOn_append_cons_self_of_not_mem hrow,
    List.splitOn_append_cons_self_of_not_mem hrow']

variable {path text : String} {before after : List (List Char)} {line : List Char} {k : Nat}

/-- The place of a span that starts `k` bytes behind the start of a line. -/
theorem renderPlace_of_cut (hf : sources.file? span = some (.ofText path text))
    (hshort : text.utf8ByteSize < placeBound) (hcut : linesOf text.toList = before ++ line :: after)
    (hk : k < byteLength line) (hstart : span.start = byteLength before.flatten + k) (label : Option String) :
    renderPlace sources span label = placeRow path (before.length + 1) (k + 1) ++
      renderLine (String.ofList (trimBreaks line)) span.length (before.length + 1) (k + 1) label := by
  have hle : byteLength before.flatten ≤ span.start := by omega
  have hplace := lineCol?_of_cut path hshort hcut hle (by omega)
  rw [hstart, Nat.add_sub_cancel_left, ← hstart] at hplace
  rw [renderPlace_of_some hf hplace, lineText?_of_cut path hcut, Option.elim_some]
  rfl

/-- Among the rows are the line with its number, and below it the markers, which start as far behind the gutter
as the span behind the start of the line. -/
theorem exists_rows_of_cut {d : Diagnostic} (hf : sources.file? d.span = some (.ofText path text))
    (hshort : text.utf8ByteSize < placeBound) (hcut : linesOf text.toList = before ++ line :: after)
    (hk : k < byteLength line) (hstart : d.span.start = byteLength before.flatten + k) :
    ∃ above count below, 0 < count ∧ (d.render sources).toList.splitOn '\n' =
      above ++ (gutter (before.length + 1) ++ trimBreaks line) :: markerRow k count :: below := by
  have hrow : '\n' ∉ gutter (before.length + 1) ++ trimBreaks line := by
    have hline : line ∈ linesOf text.toList := hcut ▸ List.mem_append_right _ List.mem_cons_self
    rw [List.mem_append, not_or]
    exact ⟨break_notMem_gutter _, break_notMem_trimBreaks hline⟩
  obtain ⟨head, hhead⟩ : ∃ head, (renderPlace sources d.span none).toList = head ++
      (renderLine (String.ofList (trimBreaks line)) d.span.length (before.length + 1) (k + 1) none).toList := by
    rw [renderPlace_of_cut hf hshort hcut hk hstart, String.toList_append]
    exact ⟨_, rfl⟩
  obtain ⟨rest, hrest⟩ : ∃ rest, (d.render sources).toList =
      d.header.toList ++ (renderPlace sources d.span none).toList ++ rest := by
    rw [toList_render, String.toList_append]
    exact ⟨_, rfl⟩
  have hrows := splitOn_rows hrow
    (break_notMem_markerRow k (markerCount d.span.length (byteLength (trimBreaks line)) (k + 1)))
    (d.header.toList ++ head ++ "   |".toList) rest
  rw [hrest, hhead, toList_renderLine, String.toList_ofList (l := trimBreaks line), Nat.add_sub_cancel]
  refine ⟨_, _, _, markerCount_pos .., Eq.trans ?_ hrows⟩
  simp only [List.append_assoc, List.cons_append, List.nil_append]

/-- Below the row of the line that a diagnostic points into stand its markers. The first of them has the place
in its row that the first byte of the span has in the row above exactly up to line 999. -/
theorem render_underlines (files : List (String × String)) (hshort : ∀ file ∈ files, file.2.utf8ByteSize < placeBound)
    (d : Diagnostic) (f : SourceFile) (hf : (SourceSet.ofFiles files).file? d.span = some f)
    (before after : List (List Char)) (line : List Char) (hcut : linesOf f.text.toList = before ++ line :: after)
    (hascii : ∀ c ∈ line, c.val ≤ 127) (k : Nat) (hk : k < (trimBreaks line).length)
    (hstart : d.span.start = byteLength before.flatten + k) :
    ∃ above marks below,
      (d.render (SourceSet.ofFiles files)).toList.splitOn '\n' =
        above ++ (gutter (before.length + 1) ++ trimBreaks line) :: marks :: below ∧
      dropBytes? d.span.start f.text.toList = some (line.drop k ++ after.flatten) ∧
      marks.findIdx? (· == '^') = some (6 + k) ∧
      (6 + k = (gutter (before.length + 1)).length + k ↔ before.length + 1 < 1000) := by
  obtain ⟨path, text, rfl, hshort⟩ := (SourceSet.fresh_ofFiles hshort).of_file? hf
  have hle : k ≤ line.length := Nat.le_trans (Nat.le_of_lt hk) (trimBreaks_isPrefix line).length_le
  have hk' : k < byteLength line := by
    rw [byteLength_of_ascii hascii]
    exact Nat.lt_of_lt_of_le hk (trimBreaks_isPrefix line).length_le
  obtain ⟨above, count, below, hcount, hrows⟩ := exists_rows_of_cut hf hshort hcut hk' hstart
  refine ⟨above, _, below, hrows, ?_, findIdx?_markerRow hcount, ?_⟩
  · have htake : byteLength (line.take k) = k := by
      rw [byteLength_of_ascii fun c hc => hascii c (List.mem_of_mem_take hc), List.length_take_of_le hle]
    have hparts : text.toList = (before.flatten ++ line.take k) ++ (line.drop k ++ after.flatten) := by
      rw [← flatten_linesOf text.toList]
      change linesOf text.toList = _ at hcut
      rw [hcut, List.flatten_append, List.flatten_cons, List.append_assoc, ← List.append_assoc (line.take k),
        List.take_append_drop]
    have hoffset : d.span.start = byteLength (before.flatten ++ line.take k) := by
      rw [byteLength_append, htake, hstart]
    change dropBytes? d.span.start text.toList = _
    rw [hparts, hoffset, dropBytes?_append]
  · rw [← length_gutter_eq_iff]
    omega

/-- A span that starts eight bytes into the second of three lines. -/
theorem render_underlines_field :
    let files := [("test.taxi", "type Money \x7b\n  ccy : Zorp\n\x7d")]
    let f := SourceFile.ofText "test.taxi" "type Money \x7b\n  ccy : Zorp\n\x7d"
    let d := Diagnostic.error .unresolvedType ⟨0, 21, 25, 2⟩ "Zorp is not defined"
    let line := "  ccy : Zorp\n".toList
    (∀ file ∈ files, file.2.utf8ByteSize < placeBound) ∧ (SourceSet.ofFiles files).file? d.span = some f ∧
      linesOf f.text.toList = ["type Money \x7b\n".toList] ++ line :: ["\x7d".toList] ∧ (∀ c ∈ line, c.val ≤ 127) ∧
      8 < (trimBreaks line).length ∧ d.span.start = byteLength ["type Money \x7b\n".toList].flatten + 8 ∧
      ∃ above marks below,
        (d.render (SourceSet.ofFiles files)).toList.splitOn '\n' =
          above ++ (gutter 2 ++ trimBreaks line) :: marks :: below ∧
        marks.findIdx? (· == '^') = some ((gutter 2).length + 8) := by
  intro files f d line
  have hshort : ∀ file ∈ files, file.2.utf8ByteSize < placeBound := by decide +kernel
  have hf : (SourceSet.ofFiles files).file? d.span = some f := by decide +kernel
  have hcut : linesOf f.text.toList = ["type Money \x7b\n".toList] ++ line :: ["\x7d".toList] := by decide +kernel
  have hall : line.all (fun c => c.val ≤ 127) = true := by decide +kernel
  have hascii : ∀ c ∈ line, c.val ≤ 127 := fun c hc => of_decide_eq_true (List.all_eq_true.1 hall c hc)
  have hlength : (trimBreaks line).length = 12 := by decide +kernel
  have hk : 8 < (trimBreaks line).length := by omega
  have hstart : d.span.start = byteLength ["type Money \x7b\n".toList].flatten + 8 := by decide +kernel
  obtain ⟨above, marks, below, hrows, -, hmarks, haligned⟩ :=
    render_underlines files hshort d f hf _ _ line hcut hascii 8 hk hstart
  exact ⟨hshort, hf, hcut, hascii, hk, hstart, above, marks, below, hrows,
    hmarks.trans (congrArg some (haligned.2 (by decide)))⟩

/-- On line 1000 the row of the line is set off by one character more than the row below it. -/
theorem render_underlines_line_thousand :
    let text := String.ofList (List.replicate 999 '\n' ++ "type A".toList)
    let d := Diagnostic.error .unresolvedType ⟨0, 999, 1003, 1000⟩ "m"
    d.render (SourceSet.ofFiles [("a.taxi", text)]) =
        "error[E0001]: unresolved type: m\n  --> a.taxi:1000:1\n   |\n1000 | type A\n    | ^^^^\n" ∧
      "1000 | type A".toList.findIdx? (· == 't') = some 7 ∧ "    | ^^^^".toList.findIdx? (· == '^') = some 6 := by
  intro text d
  have htext : text.toList = List.replicate 999 '\n' ++ "type A".toList := String.toList_ofList
  clear_value text
  have hcut : linesOf text.toList = List.replicate 999 ['\n'] ++ "type A".toList :: [] := by
    rw [htext, linesOf_replicate_break]
    rfl
  have hbefore : byteLength (List.replicate 999 ['\n']).flatten = 999 := by
    rw [List.flatten_replicate_singleton, byteLength_of_ascii, List.length_replicate]
    intro c hc
    rw [List.eq_of_mem_replicate hc]
    decide
  have hshort : text.utf8ByteSize < placeBound := by
    have hline : byteLength "type A".toList = 6 := by decide
    rw [size_of_cut hcut, hbefore, hline]
    decide
  have hf : (SourceSet.ofFiles [("a.taxi", text)]).file? d.span = some (.ofText "a.taxi" text) := rfl
  have hplace := renderPlace_of_cut hf hshort hcut (k := 0) (by decide) (by rw [hbefore]; rfl) none
  rw [List.length_replicate] at hplace
  have hlabels : d.labels = [] := rfl
  refine ⟨?_, by decide, by decide⟩
  rw [render, hplace, hlabels, List.map_nil]
  decide +kernel

end Diagnostic

end SemanticSchema
