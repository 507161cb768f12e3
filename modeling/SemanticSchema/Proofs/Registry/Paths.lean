import SemanticSchema.Constraint.Property
import SemanticSchema.Proofs.Registry.Ends

/-!
# Paths through fields

What a path finds, beside the walk along its parts.

* `Registry.Leads` : the fields that the parts of a path name one after another, each with the parts that
  are left behind it;
* `Registry.fieldOnPath_eq_ok_iff` : the field that is found is the one that the last part names;
* `Registry.fieldOnPath_of_blocked` : where parts are left and no object type stands behind the field, the
  field is reported;
* `Registry.fieldOnPath_append` : a path in two parts is followed one part after the other;
* `PropertyRef.resolve_singleton` : what a path of one part finds.
-/

set_option autoImplicit false

namespace SemanticSchema

namespace Registry

variable {r : Registry} {object : TypeId} {part : String} {rest left : List String} {f : Field} {path : PropertyPath}

/-- The walk along the parts of a path from the fields of an object type, up to some field and the parts
that are left behind it. -/
inductive Leads (r : Registry) : TypeId → List String → Field → List String → Prop
  | field {object : TypeId} {part : String} {f : Field} (rest : List String) (hf : r.field? object part = some f) :
    Leads r object (part :: rest) f rest
  | inner {object inner : TypeId} {part : String} {rest left : List String} {f last : Field}
    (hf : r.field? object part = some f) (hinner : r.UnwrapsTo f.type inner) (hrest : Leads r inner rest last left) :
    Leads r object (part :: rest) last left

theorem fieldNamed_eq_ok_iff : r.fieldNamed object part = .ok f ↔ r.field? object part = some f := by
  unfold fieldNamed
  cases r.field? object part <;> simp

theorem objectBehind_eq_ok_iff {inner : TypeId} : r.objectBehind f = .ok inner ↔ r.UnwrapsTo f.type inner := by
  rw [← unwrapObject?_eq_some_iff]
  unfold objectBehind
  cases r.unwrapObject? f.type <;> simp

theorem fieldAlong_of_inner {inner : TypeId} {next : String} (hf : r.field? object part = some f)
    (hinner : r.UnwrapsTo f.type inner) : r.fieldAlong object part (next :: rest) = r.fieldAlong inner next rest := by
  rw [fieldAlong, fieldNamed_eq_ok_iff.2 hf]
  simp only [bind, Except.bind, objectBehind_eq_ok_iff.2 hinner]

theorem fieldAlong_of_blocked {next : String} (hf : r.field? object part = some f)
    (hnone : r.unwrapObject? f.type = none) :
    r.fieldAlong object part (next :: rest) = .error (.notAnObject (r.nameOf f.type)) := by
  have hblocked : r.objectBehind f = .error (.notAnObject (r.nameOf f.type)) := by rw [objectBehind, hnone]
  rw [fieldAlong, fieldNamed_eq_ok_iff.2 hf]
  simp only [bind, Except.bind, hblocked]

theorem fieldAlong_eq_ok_iff : r.fieldAlong object part rest = .ok f ↔ r.Leads object (part :: rest) f [] := by
  constructor
  · induction rest generalizing object part with
    | nil => exact fun h => .field [] (fieldNamed_eq_ok_iff.1 h)
    | cons next rest ih =>
      intro h
      cases hfirst : r.fieldNamed object part with
      | error e => rw [fieldAlong, hfirst] at h; cases h
      | ok g =>
        have hg : r.field? object part = some g := fieldNamed_eq_ok_iff.1 hfirst
        cases hinner : r.unwrapObject? g.type with
        | none => rw [fieldAlong_of_blocked hg hinner] at h; cases h
        | some inner =>
          have hinner : r.UnwrapsTo g.type inner := unwrapObject?_eq_some_iff.1 hinner
          rw [fieldAlong_of_inner hg hinner] at h
          exact .inner hg hinner (ih h)
  · intro h
    induction rest generalizing object part with
    | nil =>
      cases h with
      | field _ hf => exact fieldNamed_eq_ok_iff.2 hf
      | inner _ _ hrest => cases hrest
    | cons next rest ih =>
      cases h with
      | inner hf hinner hrest => rw [fieldAlong_of_inner hf hinner, ih hrest]

/-- The field that a path finds is the one at the end of the walk along all its parts. -/
theorem fieldOnPath_eq_ok_iff : r.fieldOnPath object path = .ok f ↔ r.Leads object path.parts f [] := by
  obtain ⟨parts⟩ := path
  cases parts with
  | nil => exact ⟨nofun, nofun⟩
  | cons part rest => exact fieldAlong_eq_ok_iff

/-- A walk that has parts left at a field without an object type behind it ends there, with a report that
names the type of the field. -/
theorem fieldOnPath_of_blocked (h : r.Leads object path.parts f left) (hleft : left ≠ [])
    (hnone : r.unwrapObject? f.type = none) :
    r.fieldOnPath object path = .error (.notAnObject (r.nameOf f.type)) := by
  obtain ⟨parts⟩ := path
  change r.Leads object parts f left at h
  induction h with
  | field rest hf =>
    obtain ⟨next, rest, rfl⟩ := List.exists_cons_of_ne_nil hleft
    exact fieldAlong_of_blocked hf hnone
  | @inner object inner part rest left g last hg hinner hrest ih =>
    cases rest with
    | nil => cases hrest
    | cons next rest => exact (fieldAlong_of_inner hg hinner).trans (ih hleft hnone)

/-! ## Paths in two parts -/

theorem fieldAlong_append (r : Registry) (object : TypeId) (part next : String) (rest more : List String) :
    r.fieldAlong object part (rest ++ next :: more) = (r.fieldAlong object part rest).bind fun f =>
      (r.objectBehind f).bind fun inner => r.fieldAlong inner next more := by
  induction rest generalizing object part with
  | nil => rfl
  | cons second rest ih =>
    rw [List.cons_append, fieldAlong, fieldAlong]
    cases r.fieldNamed object part with
    | error e => rfl
    | ok f =>
      change ((r.objectBehind f).bind fun inner => r.fieldAlong inner second (rest ++ next :: more)) =
        ((r.objectBehind f).bind fun inner => r.fieldAlong inner second rest).bind _
      cases r.objectBehind f with
      | error e => rfl
      | ok inner => exact ih inner second

/-- The field at the end of a path in two parts is found from the object type behind the field at the end of
the first part. -/
theorem fieldOnPath_append (r : Registry) (object : TypeId) {front back : List String} (hfront : front ≠ [])
    (hback : back ≠ []) :
    r.fieldOnPath object ⟨front ++ back⟩ = (r.fieldOnPath object ⟨front⟩).bind fun f =>
      (r.objectBehind f).bind fun inner => r.fieldOnPath inner ⟨back⟩ := by
  obtain ⟨part, rest, rfl⟩ := List.exists_cons_of_ne_nil hfront
  obtain ⟨next, more, rfl⟩ := List.exists_cons_of_ne_nil hback
  exact fieldAlong_append r object part next rest more

end Registry

/-- A path of one part finds the field that it names, unless the part is the word for the value itself: this
is dropped, and an empty path finds nothing. -/
theorem PropertyRef.resolve_singleton (r : Registry) (object : TypeId) (name : String) :
    (PropertyRef.byPath ⟨[name]⟩).resolve r object =
      if name = "this" then .error (.noSuchField (r.nameOf (.user object)) "") else r.fieldNamed object name := by
  change r.fieldOnPath object (if name = "this" then ⟨[]⟩ else ⟨[name]⟩) = _
  split
  · rfl
  · rfl

end SemanticSchema
