import SemanticSchema.Proofs.Source.Cut

/-!
# The numbers of files

Files are numbered in the order in which they are stored, as long as there are numbers. The last number is kept
for spans that have no place.

* `SourceSet.toList_ofFiles` : what is stored of some files are the first of them;
* `SourceSet.add_snd` : the number that is answered for a file;
* `SourceSet.file?_ofFiles` : the file of a number, `SourceSet.file?_ofFiles_unknown` : the last number has none;
* `SourceSet.numbers_stable` : a number goes on meaning the file that it was answered for.
-/

set_option autoImplicit false

namespace SemanticSchema.SourceSet

variable {sources : SourceSet} {files : List (String × String)} {path text : String}

/-! ## One file -/

theorem add_of_lt (h : sources.files.size < Span.unknownFile) (path text : String) :
    sources.add path text = (⟨sources.files.push (.ofText path text)⟩, sources.files.size) := if_pos h

theorem add_of_le (h : Span.unknownFile ≤ sources.files.size) (path text : String) :
    sources.add path text = (sources, Span.unknownFile) := if_neg (Nat.not_lt.2 h)

theorem add_snd (sources : SourceSet) (path text : String) :
    (sources.add path text).2 = min sources.files.size Span.unknownFile := by
  rcases Nat.lt_or_ge sources.files.size Span.unknownFile with hlt | hle
  · rw [add_of_lt hlt, Nat.min_eq_left (Nat.le_of_lt hlt)]
  · rw [add_of_le hle, Nat.min_eq_right hle]

/-! ## Files one after another -/

theorem ofFiles_concat (files : List (String × String)) (path text : String) :
    ofFiles (files ++ [(path, text)]) = ((ofFiles files).add path text).1 := by
  rw [ofFiles, List.foldl_concat, ofFiles]

/-- Files are stored in order, up to the number that no file bears. -/
theorem toList_ofFiles (files : List (String × String)) :
    (ofFiles files).files.toList = (files.take Span.unknownFile).map fun file => .ofText file.1 file.2 := by
  induction files using List.reverseRecOn with
  | nil => rfl
  | append_singleton files file ih =>
    obtain ⟨path, text⟩ := file
    have hsize : (ofFiles files).files.size = min Span.unknownFile files.length := by
      rw [← Array.length_toList, ih, List.length_map, List.length_take]
    rw [ofFiles_concat]
    rcases Nat.lt_or_ge files.length Span.unknownFile with hlt | hle
    · have hfiles : files.take Span.unknownFile = files := List.take_of_length_le (Nat.le_of_lt hlt)
      have hall : (files ++ [(path, text)]).take Span.unknownFile = files ++ [(path, text)] :=
        List.take_of_length_le (by rw [List.length_append]; exact hlt)
      rw [add_of_lt (by omega), Array.toList_push, ih, hfiles, hall, List.map_append]
      rfl
    · rw [add_of_le (by omega), ih, List.take_append_of_le_length hle]

theorem size_ofFiles (files : List (String × String)) :
    (ofFiles files).files.size = min Span.unknownFile files.length := by
  rw [← Array.length_toList, toList_ofFiles, List.length_map, List.length_take]

theorem file?_ofFiles (files : List (String × String)) (span : Span) :
    (ofFiles files).file? span =
      (files.take Span.unknownFile)[span.file]?.map fun file => .ofText file.1 file.2 := by
  rw [file?, ← Array.getElem?_toList, toList_ofFiles, List.getElem?_map]

theorem file?_ofFiles_of_lt {span : Span} (hspan : span.file < Span.unknownFile)
    (hfile : files[span.file]? = some (path, text)) : (ofFiles files).file? span = some (.ofText path text) := by
  rw [file?_ofFiles, List.getElem?_take_of_lt hspan, hfile, Option.map_some]

theorem file?_ofFiles_unknown (files : List (String × String)) {span : Span} (hspan : span.isUnknown = true) :
    (ofFiles files).file? span = none := by
  have hnumber : span.file = Span.unknownFile := by rwa [Span.isUnknown, beq_iff_eq] at hspan
  rw [file?_ofFiles, hnumber, List.getElem?_take_eq_none (Nat.le_refl _), Option.map_none]

/-- When files are stored one after another, each is answered the number of those before it, or the last number
once there are no others, and the numbers fit in sixteen bits. A file that is answered another number than the
last is found under it with its own path and text, whatever is stored behind it. For the last number nothing was
stored, and no span that bears it has a file, a text or a line. -/
theorem numbers_stable (files : List (String × String)) (path text : String) (more : List (String × String)) :
    let sources : SourceSet := ofFiles files
    let number := (sources.add path text).2
    let later := ofFiles (files ++ (path, text) :: more)
    number = (if files.length < Span.unknownFile then files.length else Span.unknownFile) ∧
    number < UInt16.size ∧
    (number < Span.unknownFile → ∀ span : Span, span.file = number →
      later.file? span = some (.ofText path text)) ∧
    (number = Span.unknownFile → (sources.add path text).1 = sources) ∧
    ∀ span : Span, span.isUnknown = true →
      sources.file? span = none ∧ sources.path? span = none ∧ sources.snippet? span = none ∧
        sources.lineCol? span = none := by
  intro sources number later
  have hsize : sources.files.size = min Span.unknownFile files.length := size_ofFiles files
  have hnumber : number = min files.length Span.unknownFile := by
    have hanswer : number = min sources.files.size Span.unknownFile := add_snd sources path text
    omega
  refine ⟨?_, ?_, fun hlt span hspan => ?_, fun hfull => ?_, fun span hspan => ?_⟩
  · split <;> omega
  · have hlast : Span.unknownFile < UInt16.size := by decide
    omega
  · have hplace : span.file = files.length := by omega
    refine file?_ofFiles_of_lt (by omega) ?_
    rw [hplace, List.getElem?_append_right (Nat.le_refl _), Nat.sub_self, List.getElem?_cons_zero]
  · rw [add_of_le (by omega)]
  · have hnone : sources.file? span = none := file?_ofFiles_unknown files hspan
    refine ⟨hnone, ?_, ?_, ?_⟩
    · rw [path?, hnone, Option.map_none]
    · rw [snippet?, hnone, Option.bind_none]
    · rw [lineCol?, hnone, Option.bind_none]

/-- The second of two files keeps its number when as many files are stored behind it as there are numbers. A file
behind that many is refused. -/
theorem numbers_stable_full :
    let first := [("a.taxi", "type A")]
    let many := List.replicate Span.unknownFile ("c.taxi", "type C")
    let full := ofFiles many
    ((ofFiles first).add "b.taxi" "type B").2 = 1 ∧
      (ofFiles (first ++ ("b.taxi", "type B") :: many)).file? ⟨1, 0, 4, 1⟩ = some (.ofText "b.taxi" "type B") ∧
      (full.add "d.taxi" "type D").2 = Span.unknownFile ∧ (full.add "d.taxi" "type D").1 = full ∧
      Span.unknown.isUnknown = true ∧ full.snippet? Span.unknown = none := by
  intro first many full
  have hmany : many.length = Span.unknownFile := List.length_replicate
  obtain ⟨hsecond, -, hfound, -⟩ := numbers_stable first "b.taxi" "type B" many
  obtain ⟨hlast, -, -, hrefused, hunknown⟩ := numbers_stable many "d.taxi" "type D" []
  have hone : ((ofFiles first).add "b.taxi" "type B").2 = 1 := hsecond.trans (if_pos (by decide))
  have hfull : (full.add "d.taxi" "type D").2 = Span.unknownFile := by rw [hlast, hmany, if_neg (Nat.lt_irrefl _)]
  have hspan : Span.unknown.isUnknown = true := by decide
  refine ⟨hone, hfound ?_ _ ?_, hfull, hrefused hfull, hspan, (hunknown _ hspan).2.2.1⟩
  · rw [hone]
    decide
  · rw [hone]

end SemanticSchema.SourceSet
