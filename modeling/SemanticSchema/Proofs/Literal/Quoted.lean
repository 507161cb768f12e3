import SemanticSchema.Literal

/-!
# String literals read back

A reader of schema source takes a backslash for a sign that the next character stands for itself, and ends a
string at the first quote without such a sign. The text of a string has a backslash before every quote. A
backslash of the string itself has none, and so it is read as a sign for the character behind it.

* `Literal.readText?` : the characters of a string literal, and what stands behind it;
* `Literal.readBody?_escapeQuotes` : characters without a backslash are read back, whatever stands behind them;
* `Literal.length_le_of_readBody?`, `Literal.length_escapeQuotes` : a quote or a backslash that is read has taken
  two characters, but the text of a string has two only for a quote;
* `Literal.readText?_source_iff` : so the strings that are read back are those without a backslash.
-/

set_option autoImplicit false

namespace SemanticSchema.Literal

variable {cs value rest : List Char}

/-! ## Reading -/

/-- The characters up to the quote that ends a literal, and what stands behind that quote. A character that is
`marked` has a backslash before it and stands for itself. -/
def readBody? (marked : Bool) : List Char → Option (List Char × List Char)
  | [] => none
  | c :: cs =>
    if marked then (readBody? false cs).map fun read => (c :: read.1, read.2)
    else if c = '"' then some ([], cs)
    else if c = '\\' then readBody? true cs
    else (readBody? false cs).map fun read => (c :: read.1, read.2)

/-- The characters of a string literal, and what stands behind it. -/
def readText? : List Char → Option (List Char × List Char)
  | [] => none
  | c :: cs => if c = '"' then readBody? false cs else none

theorem readText?_source (s : String) (rest : List Char) :
    readText? ((text s).source.toList ++ rest) = readBody? false (escapeQuotes s.toList ++ '"' :: rest) := by
  have hsource : (text s).source.toList = '"' :: (escapeQuotes s.toList ++ ['"']) := by
    simp only [source, String.toList_append, String.toList_ofList]
    rfl
  rw [hsource, List.cons_append, List.append_assoc, readText?, if_pos rfl]
  rfl

/-! ## Strings without a backslash -/

theorem readBody?_escapeQuotes (h : '\\' ∉ cs) (rest : List Char) :
    readBody? false (escapeQuotes cs ++ '"' :: rest) = some (cs, rest) := by
  induction cs with
  | nil => rfl
  | cons c cs ih =>
    obtain ⟨hc, hcs⟩ := not_or.1 (mt List.mem_cons.2 h)
    by_cases hquote : c = '"'
    · simp [escapeQuotes, readBody?, hquote, ih hcs]
    · simp [escapeQuotes, readBody?, hquote, Ne.symm hc, ih hcs]

/-! ## Strings with a backslash -/

theorem length_escapeQuotes (cs : List Char) : (escapeQuotes cs).length = cs.length + cs.count '"' := by
  induction cs with
  | nil => rfl
  | cons c cs ih =>
    by_cases hquote : c = '"'
    · rw [escapeQuotes, if_pos hquote, hquote, List.count_cons_self]
      simp only [List.length_cons, ih]
      omega
    · rw [escapeQuotes, if_neg hquote, List.count_cons_of_ne hquote]
      simp only [List.length_cons, ih]
      omega

theorem length_le_of_readBody? {marked : Bool} (h : readBody? marked cs = some (value, rest)) :
    value.length + value.count '"' + value.count '\\' + rest.length + 1 ≤ cs.length + marked.toNat := by
  induction marked, cs using readBody?.induct generalizing value with
  | case1 marked => cases h
  | case2 c cs ih =>
    rw [readBody?, if_pos rfl] at h
    obtain ⟨read, hread, heq⟩ := Option.map_eq_some_iff.1 h
    cases heq
    have hrest := ih hread
    -- At most one of the two counts grows, and the backslash before `c` pays for it.
    have hcounts : (c :: read.1).count '"' + (c :: read.1).count '\\' ≤
        read.1.count '"' + read.1.count '\\' + 1 := by
      rw [List.count_cons, List.count_cons]
      grind
    simp only [List.length_cons, Bool.toNat_true, Bool.toNat_false] at hrest ⊢
    omega
  | case3 marked cs hmarked =>
    rw [readBody?, if_neg hmarked, if_pos rfl] at h
    cases h
    simp
  | case4 marked cs hmarked hquote ih =>
    rw [readBody?, if_neg hmarked, if_neg hquote, if_pos rfl] at h
    have hrest := ih h
    simp only [List.length_cons, Bool.toNat_true] at hrest ⊢
    omega
  | case5 marked c cs hmarked hquote hbackslash ih =>
    rw [readBody?, if_neg hmarked, if_neg hquote, if_neg hbackslash] at h
    obtain ⟨read, hread, heq⟩ := Option.map_eq_some_iff.1 h
    cases heq
    have hrest := ih hread
    rw [List.count_cons_of_ne hquote, List.count_cons_of_ne hbackslash]
    simp only [List.length_cons, Bool.toNat_false] at hrest ⊢
    omega

/-- The text of a string is read back as the string, whatever stands behind it, exactly when the string has no
backslash. -/
theorem readText?_source_iff (s : String) (rest : List Char) :
    readText? ((text s).source.toList ++ rest) = some (s.toList, rest) ↔ '\\' ∉ s.toList := by
  rw [readText?_source]
  constructor
  · intro h
    -- What was read is as long as the text of the string, so that no backslash has been paid for.
    have hlength := length_le_of_readBody? h
    rw [List.length_append, length_escapeQuotes, List.length_cons] at hlength
    have hcount : s.toList.count '\\' = 0 := by
      simp only [Bool.toNat_false] at hlength
      omega
    exact List.count_eq_zero.1 hcount
  · exact fun h => readBody?_escapeQuotes h rest

/-- A backslash leaves its literal open, a backslash before another is lost, and one before a quote ends the
literal too early. -/
theorem readText?_source_backslash :
    readText? (text "\\").source.toList = none ∧
      readText? (text "\\\\").source.toList = some (['\\'], []) ∧
      readText? (text "\\\"").source.toList = some (['\\'], ['"']) := by
  decide

end SemanticSchema.Literal
