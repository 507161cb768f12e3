import SemanticSchema.Proofs.Source.Lines

/-!
# A text cut into its lines

The table of line starts, beside the lines themselves.

* `SourceFile.linesOf` : the lines of a text, each with its line break; `SourceFile.flatten_linesOf` : in a row
  they are the text; `SourceFile.exists_body_of_cut` : only the last may lack its line break;
* `SourceFile.startsFrom` : the offsets between lines, `SourceFile.lineStarts_ofText` : those that the table lists;
* `SourceFile.lineCol?_of_cut`, `SourceFile.lineText?_of_cut` : what is found of a line by its place among the lines;
* `SourceFile.lineCol?_of_size`, `SourceFile.lineText?_of_size` : the end of a text has a place and no line;
* `SourceSet.ofFiles` : files that are stored one after another, `SourceSet.Fresh` : every file has the table of
  its text.
-/

set_option autoImplicit false

namespace SemanticSchema

namespace SourceFile

open Text

/-! ## The lines -/

/-- The lines of a text, each with the line break that ends it. -/
def linesOf : List Char → List (List Char)
  | [] => []
  | c :: cs =>
    if c = '\n' then [c] :: linesOf cs
    else
      match linesOf cs with
      | [] => [[c]]
      | line :: rest => (c :: line) :: rest

theorem linesOf_break (cs : List Char) : linesOf ('\n' :: cs) = ['\n'] :: linesOf cs := if_pos rfl

theorem linesOf_replicate_break (n : Nat) (cs : List Char) :
    linesOf (List.replicate n '\n' ++ cs) = List.replicate n ['\n'] ++ linesOf cs := by
  induction n with
  | zero => rfl
  | succ n ih => rw [List.replicate_succ, List.cons_append, linesOf_break, ih, List.replicate_succ, List.cons_append]

theorem flatten_linesOf (cs : List Char) : (linesOf cs).flatten = cs := by
  induction cs with
  | nil => rfl
  | cons c cs ih =>
    rw [linesOf]
    split
    · rw [List.flatten_cons, ih, List.singleton_append]
    · cases hrest : linesOf cs with
      | nil =>
        rw [hrest] at ih
        rw [← ih]
        rfl
      | cons line rest =>
        rw [hrest, List.flatten_cons] at ih
        rw [List.flatten_cons, List.cons_append, ih]

/-- No line is empty, a line break stands only at the end of a line, and only the last line may lack one. -/
theorem exists_body_of_cut {cs line : List Char} {before after : List (List Char)}
    (hcut : linesOf cs = before ++ line :: after) :
    ∃ body, '\n' ∉ body ∧ (line = body ∧ body ≠ [] ∧ after = [] ∨ line = body ++ ['\n']) := by
  induction cs generalizing before line with
  | nil => simp [linesOf] at hcut
  | cons c cs ih =>
    rw [linesOf] at hcut
    split at hcut
    case isTrue hc =>
      cases before with
      | nil =>
        obtain ⟨rfl, -⟩ := List.cons.inj hcut
        exact ⟨[], List.not_mem_nil, Or.inr (by rw [hc]; rfl)⟩
      | cons first before => exact ih (List.cons.inj hcut).2
    case isFalse hc =>
      cases hlines : linesOf cs with
      | nil =>
        rw [hlines] at hcut
        cases before with
        | nil =>
          obtain ⟨rfl, hafter⟩ := List.cons.inj hcut
          exact ⟨[c], by simpa using Ne.symm hc, Or.inl ⟨rfl, List.cons_ne_nil _ _, hafter.symm⟩⟩
        | cons first before => simp at hcut
      | cons first rest =>
        rw [hlines] at hcut ih
        cases before with
        | nil =>
          obtain ⟨rfl, rfl⟩ := List.cons.inj hcut
          have hrest : first :: rest = [] ++ first :: rest := rfl
          obtain ⟨body, hbody, hfirst⟩ := ih hrest
          refine ⟨c :: body, by simpa using ⟨Ne.symm hc, hbody⟩, ?_⟩
          rcases hfirst with ⟨rfl, -, hlast⟩ | rfl
          · exact Or.inl ⟨rfl, List.cons_ne_nil _ _, hlast⟩
          · exact Or.inr rfl
        | cons front before =>
          have hrest : first :: rest = (first :: before) ++ line :: after := by rw [(List.cons.inj hcut).2]; rfl
          exact ih hrest

theorem exists_body_of_mem_linesOf {cs line : List Char} (h : line ∈ linesOf cs) :
    ∃ body, '\n' ∉ body ∧ (line = body ∧ body ≠ [] ∨ line = body ++ ['\n']) := by
  obtain ⟨before, after, hcut⟩ := List.append_of_mem h
  obtain ⟨body, hbody, hline⟩ := exists_body_of_cut hcut
  exact ⟨body, hbody, hline.imp_left fun ⟨heq, hne, _⟩ => ⟨heq, hne⟩⟩

theorem ne_nil_of_mem_linesOf {cs line : List Char} (h : line ∈ linesOf cs) : line ≠ [] := by
  obtain ⟨body, -, ⟨rfl, hne⟩ | rfl⟩ := exists_body_of_mem_linesOf h
  · exact hne
  · exact List.append_ne_nil_of_right_ne_nil _ (List.cons_ne_nil _ _)

theorem length_le_byteLength_flatten {lines : List (List Char)} (h : ∀ line ∈ lines, line ≠ []) :
    lines.length ≤ byteLength lines.flatten := by
  induction lines with
  | nil => exact Nat.zero_le _
  | cons line lines ih =>
    obtain ⟨hline, hlines⟩ := List.forall_mem_cons.1 h
    have hpos := byteLength_pos hline
    have hle := ih hlines
    rw [List.flatten_cons, byteLength_append, List.length_cons]
    omega

/-- Every byte of some lines lies in one of them. -/
theorem exists_cut {lines : List (List Char)} {offset : Nat} (h : offset < byteLength lines.flatten) :
    ∃ before line after, lines = before ++ line :: after ∧ byteLength before.flatten ≤ offset ∧
      offset < byteLength before.flatten + byteLength line := by
  induction lines generalizing offset with
  | nil => exact absurd h (Nat.not_lt_zero _)
  | cons first lines ih =>
    rw [List.flatten_cons, byteLength_append] at h
    by_cases hfirst : offset < byteLength first
    · exact ⟨[], first, lines, rfl, Nat.zero_le _, by rwa [List.flatten_nil, byteLength, Nat.zero_add]⟩
    · have hrest : offset - byteLength first < byteLength lines.flatten := by omega
      obtain ⟨before, line, after, rfl, hle, hlt⟩ := ih hrest
      refine ⟨first :: before, line, after, rfl, ?_, ?_⟩
      all_goals
        rw [List.flatten_cons, byteLength_append]
        omega

/-! ## Line breaks at the end of a line -/

theorem trimBreaks_isPrefix (cs : List Char) : trimBreaks cs <+: cs := by
  induction cs with
  | nil => exact List.prefix_refl _
  | cons c cs ih =>
    rw [trimBreaks]
    split
    · split
      · exact List.nil_prefix
      · exact List.prefix_append [c] cs
    · exact List.cons_prefix_cons.2 ⟨rfl, ih⟩

theorem trimBreaks_concat {c : Char} (hc : isBreak c) (cs : List Char) : trimBreaks (cs ++ [c]) = trimBreaks cs := by
  induction cs with
  | nil => exact if_pos hc
  | cons d cs ih => rw [List.cons_append, trimBreaks, trimBreaks, ih]

theorem break_notMem_trimBreaks {cs line : List Char} (h : line ∈ linesOf cs) : '\n' ∉ trimBreaks line := by
  obtain ⟨body, hbody, hline⟩ := exists_body_of_mem_linesOf h
  have hshown : trimBreaks line = trimBreaks body := by
    rcases hline with ⟨rfl, -⟩ | rfl
    · rfl
    · exact trimBreaks_concat (by decide) body
  rw [hshown]
  exact fun hmem => hbody ((trimBreaks_isPrefix body).mem hmem)

/-! ## The offsets between lines -/

/-- The offsets at which lines start, of which the first starts at `offset`, and the offset behind the last. -/
def startsFrom (offset : Nat) : List (List Char) → List Nat
  | [] => [offset]
  | line :: rest => offset :: startsFrom (offset + byteLength line) rest

theorem startsFrom_append (offset : Nat) (before : List (List Char)) (line : List Char) (after : List (List Char)) :
    startsFrom offset (before ++ line :: after) =
      startsFrom offset before ++ startsFrom (offset + byteLength before.flatten + byteLength line) after := by
  induction before generalizing offset with
  | nil => rfl
  | cons first before ih =>
    rw [List.cons_append, startsFrom, startsFrom, ih, List.cons_append, List.flatten_cons, byteLength_append,
      Nat.add_assoc offset]

theorem length_startsFrom (offset : Nat) (lines : List (List Char)) :
    (startsFrom offset lines).length = lines.length + 1 := by
  induction lines generalizing offset with
  | nil => rfl
  | cons line lines ih => rw [startsFrom, List.length_cons, ih, List.length_cons]

theorem head?_startsFrom (offset : Nat) (lines : List (List Char)) : (startsFrom offset lines).head? = some offset := by
  cases lines <;> rfl

theorem getLast?_startsFrom (offset : Nat) (lines : List (List Char)) :
    (startsFrom offset lines).getLast? = some (offset + byteLength lines.flatten) := by
  induction lines generalizing offset with
  | nil => rfl
  | cons line lines ih =>
    rw [startsFrom, List.getLast?_cons, ih, Option.getD_some, List.flatten_cons, byteLength_append, Nat.add_assoc]

theorem bounds_of_mem_startsFrom {offset x : Nat} {lines : List (List Char)} (h : x ∈ startsFrom offset lines) :
    offset ≤ x ∧ x ≤ offset + byteLength lines.flatten := by
  induction lines generalizing offset with
  | nil =>
    rw [List.mem_singleton.1 h]
    exact ⟨Nat.le_refl _, Nat.le_add_right _ _⟩
  | cons line lines ih =>
    rw [List.flatten_cons, byteLength_append]
    rcases List.mem_cons.1 h with rfl | h
    · exact ⟨Nat.le_refl _, Nat.le_add_right _ _⟩
    · have hbounds := ih h
      omega

theorem getLast?_cons_eq_iff {x y : Nat} (h : x ≠ y) (xs : List Nat) :
    (x :: xs).getLast? = some y ↔ xs.getLast? = some y := by
  cases xs with
  | nil => simpa using h
  | cons x' xs => rw [List.getLast?_cons_cons]

/-- The table of a text and its end, as it is filled from an offset on. -/
theorem startsFrom_linesOf (offset : Nat) (cs : List Char) : startsFrom offset (linesOf cs) =
    offset :: breaksFrom offset cs ++
      if (offset :: breaksFrom offset cs).getLast? = some (offset + byteLength cs) then []
      else [offset + byteLength cs] := by
  induction cs generalizing offset with
  | nil => rw [if_pos (by rfl)]; rfl
  | cons c cs ih =>
    by_cases hc : c = '\n'
    · have hsize : c.utf8Size = 1 := by rw [hc]; decide
      have hbyte : byteLength ['\n'] = 1 := by decide
      rw [breaksFrom, if_pos hc, List.getLast?_cons_cons, byteLength, hsize, ← Nat.add_assoc, List.cons_append,
        ← ih, hc, linesOf_break, startsFrom, hbyte]
    · -- The table from the next character on differs in its first entry alone.
      have hrest := ih (offset + c.utf8Size)
      have hpos : 0 < c.utf8Size := c.utf8Size_pos
      rw [linesOf, if_neg hc, breaksFrom, if_neg hc, byteLength, ← Nat.add_assoc]
      cases hlines : linesOf cs with
      | nil =>
        have hnil : cs = [] := by rw [← flatten_linesOf cs, hlines]; rfl
        have hne : offset ≠ offset + c.utf8Size := by omega
        rw [hnil, byteLength, Nat.add_zero, if_neg (by simpa [breaksFrom] using hne)]
        rfl
      | cons line rest =>
        have hlength : 0 < byteLength cs := by
          rw [← flatten_linesOf cs, hlines, List.flatten_cons, byteLength_append]
          exact Nat.add_pos_left (byteLength_pos (ne_nil_of_mem_linesOf (hlines ▸ List.mem_cons_self))) _
        have hne (x : Nat) (hx : x ≤ offset + c.utf8Size) : x ≠ offset + c.utf8Size + byteLength cs := by omega
        simp only [hlines, startsFrom, List.cons_append, List.cons.injEq, true_and,
          getLast?_cons_eq_iff (hne _ (Nat.le_refl _))] at hrest
        simp only [startsFrom, List.cons_append, byteLength, getLast?_cons_eq_iff (hne offset (by omega))]
        rw [← hrest, Nat.add_assoc]

/-! ## Lines by their place -/

variable {path text : String} {before after : List (List Char)} {line : List Char} {offset : Nat}

theorem lineStarts_ofText (path text : String) :
    (ofText path text).lineStarts = startsFrom 0 (linesOf text.toList) := by
  rw [startsFrom_linesOf, Nat.zero_add]
  change lineStartsOf text.toList = _
  rw [lineStartsOf]
  split_ifs
  · exact (List.append_nil _).symm
  · rfl

theorem lineStarts_of_cut (hcut : linesOf text.toList = before ++ line :: after) :
    (ofText path text).lineStarts =
      startsFrom 0 before ++ startsFrom (byteLength before.flatten + byteLength line) after := by
  rw [lineStarts_ofText, hcut, startsFrom_append, Nat.zero_add]

theorem size_of_cut (hcut : linesOf text.toList = before ++ line :: after) :
    text.utf8ByteSize = byteLength before.flatten + byteLength line + byteLength after.flatten := by
  rw [← byteLength_toList, ← flatten_linesOf text.toList, hcut, List.flatten_append, List.flatten_cons,
    byteLength_append, byteLength_append, Nat.add_assoc]

/-- A short text has fewer lines than are counted without wrapping round. -/
theorem length_linesOf_lt (hshort : text.utf8ByteSize < placeBound) : (linesOf text.toList).length < placeBound := by
  have hle := length_le_byteLength_flatten fun line (h : line ∈ linesOf text.toList) => ne_nil_of_mem_linesOf h
  rw [flatten_linesOf, byteLength_toList] at hle
  omega

/-- The place of an offset in a line: the number of the line, and the bytes since its start. -/
theorem lineCol?_of_cut (path : String) (hshort : text.utf8ByteSize < placeBound)
    (hcut : linesOf text.toList = before ++ line :: after) (hle : byteLength before.flatten ≤ offset)
    (hlt : offset < byteLength before.flatten + byteLength line) :
    (ofText path text).lineCol? offset = some (before.length + 1, offset - byteLength before.flatten + 1) := by
  have hsize := size_of_cut hcut
  have hlines := length_linesOf_lt hshort
  rw [hcut, List.length_append, List.length_cons] at hlines
  have hlast := getLast?_startsFrom 0 before
  rw [Nat.zero_add] at hlast
  rw [lineCol?_of_split (by rw [size_ofText]; omega) (lineStarts_of_cut hcut) hlast
    (fun x hx => by have hbounds := bounds_of_mem_startsFrom hx; omega)
    (fun x hx => by have hbounds := bounds_of_mem_startsFrom hx; omega),
    length_startsFrom, Nat.mod_eq_of_lt (by omega), column_eq hle (by omega)]

theorem lineRange?_eq_none {f : SourceFile} {i : Nat} (h : f.lineStarts.length ≤ i + 1) :
    f.lineRange? (i + 1) = none := by
  rw [lineRange?, List.getElem?_eq_none h]
  cases f.lineStarts[i]? <;> rfl

theorem lineRange?_of_cut (path : String) (hcut : linesOf text.toList = before ++ line :: after) :
    (ofText path text).lineRange? (before.length + 1) =
      some (byteLength before.flatten, byteLength before.flatten + byteLength line) := by
  have hlength := length_startsFrom 0 before
  have hstart : (ofText path text).lineStarts[before.length]? = some (byteLength before.flatten) := by
    have hlast := getLast?_startsFrom 0 before
    rw [List.getLast?_eq_getElem?, hlength, Nat.add_sub_cancel, Nat.zero_add] at hlast
    rw [lineStarts_of_cut hcut, List.getElem?_append_left (by omega), hlast]
  have hstop : (ofText path text).lineStarts[before.length + 1]? =
      some (byteLength before.flatten + byteLength line) := by
    rw [lineStarts_of_cut hcut, List.getElem?_append_right (by omega), hlength, Nat.sub_self,
      ← List.head?_eq_getElem?, head?_startsFrom]
  rw [lineRange?, hstart, hstop]

/-- The text of a line is what stands in it before its line break. -/
theorem lineText?_of_cut (path : String) (hcut : linesOf text.toList = before ++ line :: after) :
    (ofText path text).lineText? (before.length + 1) = some (String.ofList (trimBreaks line)) := by
  have htext : (ofText path text).text.toList = before.flatten ++ (line ++ after.flatten) := by
    change text.toList = _
    rw [← flatten_linesOf text.toList, hcut, List.flatten_append, List.flatten_cons]
  rw [lineText?, lineRange?_of_cut path hcut, Option.bind_some, htext, sliceBytes?_append, Option.map_some]

/-! ## The end of a text -/

/-- The end of a text is counted as a line behind the last. -/
theorem lineCol?_of_size (path : String) (text : String) :
    (ofText path text).lineCol? text.utf8ByteSize =
      some (((linesOf text.toList).length + 1) % placeBound, 1) := by
  have hflatten : byteLength (linesOf text.toList).flatten = text.utf8ByteSize := by
    rw [flatten_linesOf, byteLength_toList]
  have hlast := getLast?_startsFrom 0 (linesOf text.toList)
  rw [Nat.zero_add, hflatten] at hlast
  have hfront : ∀ x ∈ startsFrom 0 (linesOf text.toList), x ≤ text.utf8ByteSize := by
    intro x hx
    have hbounds := bounds_of_mem_startsFrom hx
    omega
  have hcolumns : 1 < placeBound := by decide
  rw [lineCol?_of_split (Nat.le_of_eq (size_ofText path text).symm)
    ((lineStarts_ofText path text).trans (List.append_nil _).symm) hlast hfront nofun,
    length_startsFrom, column_eq (Nat.le_refl _) (by omega), Nat.sub_self]

/-- No text is found for the line that the end of a text is counted as. -/
theorem lineText?_of_size (path : String) (hshort : text.utf8ByteSize < placeBound) :
    (ofText path text).lineText? (((linesOf text.toList).length + 1) % placeBound) = none := by
  have hlines := length_linesOf_lt hshort
  have hlength : (ofText path text).lineStarts.length = (linesOf text.toList).length + 1 := by
    rw [lineStarts_ofText, length_startsFrom]
  have hrange : (ofText path text).lineRange? (((linesOf text.toList).length + 1) % placeBound) = none := by
    rcases Nat.lt_or_eq_of_le hlines with hlt | heq
    · rw [Nat.mod_eq_of_lt hlt, lineRange?_eq_none (Nat.le_of_eq hlength)]
    · -- The number of the line wraps round, and there is no line zero.
      have hwrap : ((linesOf text.toList).length + 1) % placeBound = 0 := by rw [← heq]; exact Nat.mod_self _
      rw [hwrap, lineRange?]
  rw [lineText?, hrange, Option.bind_none]

end SourceFile

namespace SourceSet

open SourceFile

/-! ## Files that are stored one after another -/

/-- The files of the given paths and texts, stored one after another. -/
def ofFiles (files : List (String × String)) : SourceSet :=
  files.foldl (fun sources file => (sources.add file.1 file.2).1) {}

/-- Every file has the table of its text, which is short enough for its places to be counted. -/
def Fresh (sources : SourceSet) : Prop :=
  ∀ f ∈ sources.files, f = .ofText f.path f.text ∧ f.text.utf8ByteSize < placeBound

theorem Fresh.add {sources : SourceSet} (hfresh : sources.Fresh) {path text : String}
    (hshort : text.utf8ByteSize < placeBound) : (sources.add path text).1.Fresh := by
  rw [SourceSet.add]
  split
  · intro f hf
    rcases Array.mem_push.1 hf with hf | rfl
    · exact hfresh f hf
    · exact ⟨rfl, hshort⟩
  · exact hfresh

theorem fresh_ofFiles {files : List (String × String)} (hshort : ∀ file ∈ files, file.2.utf8ByteSize < placeBound) :
    (ofFiles files).Fresh := by
  have hrun (sources : SourceSet) (hfresh : sources.Fresh) :
      (files.foldl (fun sources file => (sources.add file.1 file.2).1) sources).Fresh := by
    induction files generalizing sources with
    | nil => exact hfresh
    | cons file files ih =>
      obtain ⟨hfile, hfiles⟩ := List.forall_mem_cons.1 hshort
      exact ih hfiles _ (hfresh.add hfile)
  exact hrun {} nofun

theorem Fresh.of_file? {sources : SourceSet} (hfresh : sources.Fresh) {span : Span} {f : SourceFile}
    (hf : sources.file? span = some f) :
    ∃ path text, f = .ofText path text ∧ text.utf8ByteSize < placeBound := by
  obtain ⟨hfile, hshort⟩ := hfresh f (Array.mem_of_getElem? hf)
  exact ⟨f.path, f.text, hfile, hshort⟩

end SourceSet

end SemanticSchema
