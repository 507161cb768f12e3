import Mathlib.Data.List.Forall2
import Mathlib.Data.List.Perm.Basic
import SemanticSchema.Proofs.Registry.Lineage

/-!
# Declarations in another order

Two registries that differ only in the order in which object types list their fields, and object types and
enums their supertypes. The walk over supertypes takes another course then, and comes to the same types.

* `TypeBody.Reordered`, `Registry.Reordered` : types, and registries, that differ in these orders alone;
* `Registry.Reordered.supertypeStep_eq` : the same steps lead up, so the same types lie above each type;
* `Registry.Reordered.lineage_perm` : the walk meets the same user types;
* `Registry.Reordered.allFields_perm` : so each type has the same fields.
-/

set_option autoImplicit false

namespace SemanticSchema

open Relation

/-- Types that differ only in the order of the fields and of the supertypes that they list. -/
inductive TypeBody.Reordered : TypeBody → TypeBody → Prop
  | refl (body : TypeBody) : Reordered body body
  | object (name : QualifiedName) {d : ObjectDefinition} {fields : List Field} {inherits : List TypeRef}
    (extensions : List ObjectExtension) (hfields : d.fields.Perm fields) (hinherits : d.inherits.Perm inherits) :
    Reordered (.object ⟨name, some d, extensions⟩)
      (.object ⟨name, some { d with fields := fields, inherits := inherits }, extensions⟩)
  | enum (name : QualifiedName) {d : EnumDefinition} {inherits : List TypeRef} (extensions : List EnumExtension)
    (hinherits : d.inherits.Perm inherits) :
    Reordered (.enum ⟨name, some d, extensions⟩) (.enum ⟨name, some { d with inherits := inherits }, extensions⟩)

/-- Records of one place whose types differ only in these orders. -/
structure Record.Reordered (x y : Record) : Prop where
  origin : y.origin = x.origin
  body : x.body.Reordered y.body

/-- Registries whose records differ, slot by slot, only in these orders. -/
structure Registry.Reordered (r r' : Registry) : Prop where
  imports : r'.imports = r.imports
  records : List.Forall₂ Record.Reordered r.records r'.records

theorem TypeBody.Reordered.name_eq {body body' : TypeBody} (h : body.Reordered body') : body'.name = body.name := by
  cases h <;> rfl

theorem rel_getElem? {α : Type} {R : α → α → Prop} {xs ys : List α} (h : List.Forall₂ R xs ys) (i : Nat) :
    Option.Rel R xs[i]? ys[i]? := by
  induction h generalizing i with
  | nil => exact .none
  | cons hhead _ ih =>
    cases i with
    | zero => exact .some hhead
    | succ i => exact ih i

namespace Registry.Reordered

variable {r r' : Registry}

/-- A slot is empty in both registries, or holds two types that differ in the orders alone. -/
theorem get?_cases (h : r.Reordered r') (id : TypeId) : (r.get? id = none ∧ r'.get? id = none) ∨
    ∃ body body' origin, r.get? id = some ⟨body, origin⟩ ∧ r'.get? id = some ⟨body', origin⟩ ∧
      body.Reordered body' := by
  have hslot : Option.Rel Record.Reordered (r.get? id) (r'.get? id) := rel_getElem? h.records id.slot
  cases hx : r.get? id <;> cases hy : r'.get? id <;> rw [hx, hy] at hslot
  · exact Or.inl ⟨rfl, rfl⟩
  · cases hslot
  · cases hslot
  · next x y =>
    cases hslot with
    | some hrecord => exact Or.inr ⟨x.body, y.body, x.origin, rfl, hrecord.origin ▸ rfl, hrecord.body⟩

theorem nameOf_eq (h : r.Reordered r') (t : TypeRef) : r'.nameOf t = r.nameOf t := by
  induction t with
  | array m ih => rw [nameOf, nameOf, ih]
  | user id =>
    rcases h.get?_cases id with ⟨hx, hy⟩ | ⟨body, body', origin, hx, hy, hbody⟩
    · rw [nameOf, nameOf, hx, hy]
    · rw [nameOf_user hx, nameOf_user hy]
      exact hbody.name_eq
  | primitive | void | imported => rfl

/-! ## Supertypes -/

theorem directSupertypes_perm (h : r.Reordered r') (t : TypeRef) :
    (r.directSupertypes t).Perm (r'.directSupertypes t) := by
  cases t with
  | user id =>
    rcases h.get?_cases id with ⟨hx, hy⟩ | ⟨body, body', origin, hx, hy, hbody⟩
    · simp only [directSupertypes, hx, hy, List.Perm.refl]
    · simp only [directSupertypes, hx, hy]
      cases hbody with
      | refl => exact .refl _
      | object name extensions hfields hinherits => exact hinherits
      | enum name extensions hinherits => exact hinherits
  | primitive | void | array | imported => exact .refl _

theorem supertypeStep_eq (h : r.Reordered r') : r'.SupertypeStep = r.SupertypeStep := by
  ext t above
  exact (h.directSupertypes_perm t).mem_iff.symm

theorem lineage_perm (h : r.Reordered r') (id : TypeId) : (r.lineage id).Perm (r'.lineage id) := by
  refine (List.perm_ext_iff_of_nodup (r.nodup_lineage id) (r'.nodup_lineage id)).2 fun i => ?_
  rw [mem_lineage_iff, mem_lineage_iff, h.supertypeStep_eq]

/-! ## Fields -/

/-- What the extensions make of a field depends on its name and not on its place. -/
theorem ownFields_perm (h : r.Reordered r') (id : TypeId) : (r.ownFields id).Perm (r'.ownFields id) := by
  rcases h.get?_cases id with ⟨hx, hy⟩ | ⟨body, body', origin, hx, hy, hbody⟩
  · simp only [ownFields, object?, hx, hy, List.Perm.refl]
  · simp only [ownFields, object?, hx, hy]
    cases hbody with
    | refl => exact .refl _
    | object name extensions hfields hinherits => exact hfields.map _
    | enum name extensions hinherits => exact .refl _

theorem allFields_perm (h : r.Reordered r') (id : TypeId) : (r.allFields id).Perm (r'.allFields id) :=
  calc r.allFields id
    _ |>.Perm ((r.lineage id).flatMap r.ownFields) := r.allFields_perm_lineage id
    _ |>.Perm ((r'.lineage id).flatMap r'.ownFields) := (h.lineage_perm id).flatMap fun i _ => h.ownFields_perm i
    _ |>.Perm (r'.allFields id) := (r'.allFields_perm_lineage id).symm

end Registry.Reordered

end SemanticSchema
