/-!
# Dotted text

Splitting of characters at dots.

* `splitLast?` : what stands before and behind the last dot;
* `splitLast?_eq_none`, `splitLast?_append` : there is no dot, or none behind some dot;
* `splitDots` : the pieces between the dots, at least one;
* `splitDots_ne_nil`.
-/

set_option autoImplicit false

namespace SemanticSchema.Text

/-- The characters before and behind the last dot, or `none` without a dot. -/
def splitLast? : List Char → Option (List Char × List Char)
  | [] => none
  | c :: cs =>
    match splitLast? cs with
    | some (front, back) => some (c :: front, back)
    | none => if c = '.' then some ([], cs) else none

theorem splitLast?_eq_none {cs : List Char} (h : '.' ∉ cs) : splitLast? cs = none := by
  induction cs with
  | nil => rfl
  | cons c cs ih =>
    obtain ⟨hc, hcs⟩ := List.ne_and_not_mem_of_not_mem_cons h
    rw [splitLast?, ih hcs]
    exact if_neg hc.symm

theorem splitLast?_append (front : List Char) {back : List Char} (h : '.' ∉ back) :
    splitLast? (front ++ '.' :: back) = some (front, back) := by
  induction front with
  | nil =>
    rw [List.nil_append, splitLast?, splitLast?_eq_none h]
    rfl
  | cons c front ih => rw [List.cons_append, splitLast?, ih]

/-- The pieces between the dots; a text without a dot is one piece. -/
def splitDots : List Char → List (List Char)
  | [] => [[]]
  | c :: cs =>
    if c = '.' then [] :: splitDots cs
    else match splitDots cs with
      | [] => [[c]]
      | piece :: pieces => (c :: piece) :: pieces

theorem splitDots_ne_nil (cs : List Char) : splitDots cs ≠ [] := by
  cases cs with
  | nil => simp [splitDots]
  | cons c cs =>
    simp only [splitDots]
    split
    · simp
    · split <;> simp

end SemanticSchema.Text
