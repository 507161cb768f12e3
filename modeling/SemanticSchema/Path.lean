import SemanticSchema.Text.Dotted

/-!
# Property paths

A path names a property through the fields that lead to it, such as `this.price.amount`.

* `PropertyPath.parse` : the parts between the dots, at least one;
* `PropertyPath.withoutThis` : the path inside the value that `this` stands for;
* `PropertyPath.display`.
-/

set_option autoImplicit false

namespace SemanticSchema

/-- The names along a path; a path may be empty, and a part may hold dots. -/
structure PropertyPath where
  parts : List String
deriving DecidableEq, Inhabited

namespace PropertyPath

/-- Splits a text at every dot. -/
def parse (s : String) : PropertyPath :=
  ⟨(Text.splitDots s.toList).map String.ofList⟩

def head? (p : PropertyPath) : Option String := p.parts.head?

def length (p : PropertyPath) : Nat := p.parts.length

def isEmpty (p : PropertyPath) : Bool := p.parts.isEmpty

theorem isEmpty_iff {p : PropertyPath} : p.isEmpty = true ↔ p = ⟨[]⟩ := by
  cases p
  simp [isEmpty]

/-- Drops one leading `this`. -/
def withoutThis (p : PropertyPath) : PropertyPath :=
  match p.parts with
  | [] => p
  | part :: rest => if part = "this" then ⟨rest⟩ else p

def display (p : PropertyPath) : String := String.intercalate "." p.parts

end PropertyPath

end SemanticSchema
