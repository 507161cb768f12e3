import SemanticSchema.Text.CaseTable

/-!
# Lower case

The full lower-case form of a text.

* `lowerChar` : the form of one character away from its context;
* `endsWord` : whether a cased letter comes first among the characters that are not ignorable;
* `lowercase` : the form of a text. A capital sigma becomes the final sigma when a cased letter
  stands before it in the word and none behind it.
-/

set_option autoImplicit false

namespace SemanticSchema.Text

/-- The lower-case form of one character. -/
def lowerChar (c : Char) : List Char :=
  if c = '\u0130' then ['i', '\u0307']
  else match lowerRuns.findSome? (·.lower? c.toNat) with
    | some code => [Char.ofNat code]
    | none => [c]

/-- Whether the first character that is not case-ignorable is a cased one. -/
def endsWord (cs : List Char) : Bool :=
  match cs.dropWhile fun c => inRuns ignorableRuns c.toNat with
  | [] => false
  | c :: _ => inRuns casedRuns c.toNat

/-- The lower-case form of the characters `cs`, which follow `before` (in reverse order). -/
def lowerFrom (before : List Char) : List Char → List Char
  | [] => []
  | c :: cs =>
    (if c = '\u03A3' then
      if endsWord before && !endsWord cs then ['\u03C2'] else ['\u03C3']
    else lowerChar c) ++ lowerFrom (c :: before) cs

/-- The lower-case form of a text. -/
def lowercase (s : String) : String :=
  String.ofList (lowerFrom [] s.toList)

end SemanticSchema.Text
