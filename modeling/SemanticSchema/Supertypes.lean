import SemanticSchema.Registry
import SemanticSchema.Slots

/-!
# Supertypes

The types that a type inherits from, and the type that an alias stands for. A cycle is no error
here: every walk passes a type once.

* `Registry.directSupertypes` : one step up;
* `Registry.supertypes` : every type above, each once, depth first and in declaration order;
* `Registry.isAssignable` : whether one type is another or lies below it;
* `Registry.isCyclic` : whether a type lies above itself, which is searched for with a stack.
-/

set_option autoImplicit false

namespace SemanticSchema.Registry

/-- The types that a user type names as its supertypes; for an alias, the type it stands for. -/
def directSupertypes (r : Registry) : TypeRef → List TypeRef
  | .user id =>
    match r.get? id with
    | some ⟨.object t, _⟩ => (t.definition.map (·.inherits)).getD []
    | some ⟨.enum t, _⟩ => (t.definition.map (·.inherits)).getD []
    | some ⟨.typeAlias t, _⟩ => t.target?.toList
    | _ => []
  | _ => []

/-- The number of supertypes named in a slot. -/
def supertypeCount (r : Registry) (slot : Nat) : Nat := (r.directSupertypes (.user ⟨slot⟩)).length

/-- The steps up that a walk has still to take from the slots it has not seen. -/
def stepsLeft (r : Registry) (seen : List TypeRef) : Nat :=
  unvisitedWeight r.supertypeCount (fun i => seen.contains (.user ⟨i⟩)) r.size

theorem directSupertypes_of_size_le {r : Registry} {id : TypeId} (h : r.size ≤ id.slot) :
    r.directSupertypes (.user id) = [] := by
  have : r.get? id = none := List.getElem?_eq_none h
  simp [directSupertypes, this]

theorem length_directSupertypes_add_stepsLeft_le {r : Registry} {t : TypeRef} {seen : List TypeRef}
    (h : t ∉ seen) :
    (r.directSupertypes t).length + r.stepsLeft (t :: seen) ≤ r.stepsLeft seen := by
  have hmono : ∀ j, seen.contains (TypeRef.user ⟨j⟩) = true →
      (t :: seen).contains (TypeRef.user ⟨j⟩) = true := by
    intro j hj
    simp only [List.contains_cons, hj, Bool.or_true]
  have hle : r.stepsLeft (t :: seen) ≤ r.stepsLeft seen := unvisitedWeight_mono hmono
  match t with
  | .user id =>
    by_cases hid : id.slot < r.size
    · exact @unvisitedWeight_visit r.supertypeCount _ _ _ id.slot hmono hid (by simpa using h)
        (by simp)
    · rw [directSupertypes_of_size_le (by omega)]
      simpa using hle
  | .primitive _ | .void | .array _ | .imported _ => simpa [directSupertypes] using hle

/-- The types that a depth-first walk meets on its way through `pending`, those of `seen` left
out. -/
def walkUp (r : Registry) (seen : List TypeRef) : List TypeRef → List TypeRef
  | [] => []
  | t :: rest =>
    if _h : t ∈ seen then walkUp r seen rest
    else t :: walkUp r (t :: seen) (r.directSupertypes t ++ rest)
termination_by pending => pending.length + r.stepsLeft seen
decreasing_by
  · simp
  · have := @length_directSupertypes_add_stepsLeft_le r _ _ _h
    simp only [List.length_append, List.length_cons]
    omega

/-- Every type above `t` except `t` itself. -/
def supertypes (r : Registry) (t : TypeRef) : List TypeRef :=
  r.walkUp [t] (r.directSupertypes t)

/-- Whether `sub` is `sup` or lies below it. -/
def isAssignable (r : Registry) (sub sup : TypeRef) : Bool :=
  sub == sup || (r.supertypes sub).contains sup

/-- Whether the way up from the types on a stack, its top first, leads to `goal`; the supertypes of
`seen` were put on the stack before. -/
def searchUp (r : Registry) (goal : TypeRef) (seen : List TypeRef) : List TypeRef → Bool
  | [] => false
  | t :: rest =>
    if t = goal then true
    else if _h : t ∈ seen then searchUp r goal seen rest
    else searchUp r goal (t :: seen) ((r.directSupertypes t).reverse ++ rest)
termination_by pending => pending.length + r.stepsLeft seen
decreasing_by
  · simp
  · have := @length_directSupertypes_add_stepsLeft_le r _ _ _h
    simp only [List.length_append, List.length_reverse, List.length_cons]
    omega

/-- Whether a type lies above itself. -/
def isCyclic (r : Registry) (t : TypeRef) : Bool :=
  r.searchUp t [] (r.directSupertypes t).reverse

end SemanticSchema.Registry
