import SemanticSchema.Name

/-!
# The order of names

Names are ordered by namespace, then simple name, then parameters; texts by their code points, and
a list of parameters before every list that it begins.

* `QualifiedName.compare`, `QualifiedName.sort`.
-/

set_option autoImplicit false

namespace SemanticSchema.QualifiedName

mutual

/-- Namespace first, then simple name, then parameters. -/
def compare : QualifiedName → QualifiedName → Ordering
  | ⟨ns, simple, params⟩, ⟨ns', simple', params'⟩ =>
    ((Ord.compare ns ns').then (Ord.compare simple simple')).then (compareAll params params')

def compareAll : List QualifiedName → List QualifiedName → Ordering
  | [], [] => .eq
  | [], _ :: _ => .lt
  | _ :: _, [] => .gt
  | a :: as, b :: bs => (compare a b).then (compareAll as bs)

end

def sort (ns : List QualifiedName) : List QualifiedName :=
  ns.mergeSort fun a b => (compare a b).isLE

end SemanticSchema.QualifiedName
