import SemanticSchema.Text.Dotted

/-!
# Qualified names

A type or service is known by a namespace and a simple name; a use of a generic type also has
type parameters. Names are equal only part by part: `a.b` with `C` and `a` with `b.C` are two names
with one spelling.

* `QualifiedName.ofParts`, `QualifiedName.parse` : the namespace ends at the last dot;
* `QualifiedName.qualified`, `QualifiedName.display` : the spelling without and with parameters;
* `QualifiedName.relativeTo` : the short spelling inside a namespace;
* `QualifiedName.isBuiltin` : whether a name means the built-in type of a simple name.
-/

set_option autoImplicit false

namespace SemanticSchema

/-- A namespace, a simple name and the type parameters applied to it. -/
structure QualifiedName where
  ns : String
  simple : String
  params : List QualifiedName
deriving Inhabited

namespace QualifiedName

/-- The namespace of the built-in types. -/
def builtinNamespace : String := "lang.taxi"

/-! ## Equality -/

mutual

/-- Names are compared part by part. -/
def decEq : (a b : QualifiedName) → Decidable (a = b)
  | ⟨ns, simple, params⟩, ⟨ns', simple', params'⟩ =>
    if hns : ns = ns' then
      if hsimple : simple = simple' then
        match decEqAll params params' with
        | isTrue hparams => isTrue (by rw [hns, hsimple, hparams])
        | isFalse hparams => isFalse fun h => hparams (congrArg QualifiedName.params h)
      else isFalse fun h => hsimple (congrArg QualifiedName.simple h)
    else isFalse fun h => hns (congrArg QualifiedName.ns h)

def decEqAll : (as bs : List QualifiedName) → Decidable (as = bs)
  | [], [] => isTrue rfl
  | [], _ :: _ => isFalse nofun
  | _ :: _, [] => isFalse nofun
  | a :: as, b :: bs =>
    match decEq a b, decEqAll as bs with
    | isTrue hhead, isTrue htail => isTrue (by rw [hhead, htail])
    | isFalse hhead, _ => isFalse fun h => hhead (List.cons.inj h).1
    | _, isFalse htail => isFalse fun h => htail (List.cons.inj h).2

end

instance : DecidableEq QualifiedName := decEq

/-! ## Reading and spelling -/

/-- The name without parameters in a namespace. -/
def ofParts (ns simple : String) : QualifiedName := ⟨ns, simple, []⟩

/-- Splits a spelling at its last dot; without a dot the namespace is empty. -/
def parse (s : String) : QualifiedName :=
  match Text.splitLast? s.toList with
  | some (front, back) => ofParts (String.ofList front) (String.ofList back)
  | none => ofParts "" s

/-- A name is unqualified when its namespace is empty. -/
def isUnqualified (n : QualifiedName) : Bool := n.ns == ""

/-- Namespace and simple name, joined by a dot unless the namespace is empty. -/
def qualified (n : QualifiedName) : String :=
  if n.isUnqualified then n.simple else n.ns ++ "." ++ n.simple

mutual

/-- The spelling with the type parameters in angle brackets. -/
def display : QualifiedName → String
  | ⟨ns, simple, []⟩ => qualified ⟨ns, simple, []⟩
  | ⟨ns, simple, p :: ps⟩ =>
    qualified ⟨ns, simple, []⟩ ++ "<" ++ String.intercalate "," (display p :: displayAll ps) ++ ">"

def displayAll : List QualifiedName → List String
  | [] => []
  | n :: ns => display n :: displayAll ns

end

theorem displayAll_eq_map (ns : List QualifiedName) : displayAll ns = ns.map display := by
  induction ns with
  | nil => rfl
  | cons n ns ih => rw [displayAll, ih, List.map_cons]

/-- Inside its own namespace a name is spelled by its simple name, and so is a built-in
everywhere. -/
def relativeTo (n : QualifiedName) (ns : String) : String :=
  if n.ns = ns ∨ n.ns = builtinNamespace then n.simple else n.qualified

/-- Whether a text spells this name; a name with parameters is spelled by no text. -/
def isSpelled (n : QualifiedName) (s : String) : Bool :=
  n.params.isEmpty && n.qualified == s

/-- Whether a name means the built-in called `simple`: the namespace may be left out, and
parameters play no part. -/
def isBuiltin (n : QualifiedName) (simple : String) : Bool :=
  n.simple == simple && (n.isUnqualified || n.ns == builtinNamespace)

/-- The spellings of several names as one enumeration. -/
def enumerate (ns : List QualifiedName) : String :=
  String.intercalate ", " (ns.map display)

end QualifiedName

end SemanticSchema
