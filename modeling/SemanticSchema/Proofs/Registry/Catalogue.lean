import Mathlib.Order.Bounds.Basic
import SemanticSchema.Proofs.Registry.Lineage
import SemanticSchema.References

/-!
# Catalogues

What is gathered by following references. A type points only at what it names itself, its direct supertypes
and the types of its own fields; all that it inherits comes in by way of its supertypes.

* `Registry.PointsTo` : from a type to another that it names;
* `Registry.follows_of_named` : what a type names is reached, be it the type itself;
* `Registry.follows_of_supertypeSteps` : so is what lies above it, at any height;
* `Registry.follows_of_field` : so are the types of its fields, its own and those that it inherits;
* `Registry.catalogue`, `Registry.catalogue_complete` : the smallest set of types that is closed under
  references, and what is in it.
-/

set_option autoImplicit false

namespace SemanticSchema.Registry

open Relation

variable {r : Registry} {id a b : TypeId} {t above : TypeRef}

/-- From a type to another that it points at. -/
def PointsTo (r : Registry) (a b : TypeId) : Prop := b ∈ r.referencedTypes a

theorem pointsTo_iff : r.PointsTo a b ↔ .user b ∈ r.namedReferences a ∧ b ≠ a := by
  rw [PointsTo, referencedTypes, List.mem_eraseDups, List.mem_filter, decide_eq_true_eq, TypeRef.mem_userIds_iff]

/-- A reference of a type to itself is left out, and nothing is lost by it. -/
theorem follows_of_named (h : .user b ∈ r.namedReferences a) : ReflTransGen r.PointsTo a b := by
  by_cases hself : b = a
  · rw [hself]
  · exact .single (pointsTo_iff.2 ⟨h, hself⟩)

theorem mem_namedReferences_of_field {f : Field} (hf : f ∈ r.ownFields a) : f.type.member ∈ r.namedReferences a :=
  List.mem_append_left _ (List.mem_append_right _ (List.mem_map_of_mem hf))

theorem mem_namedReferences_of_target (h : r.aliasTarget? (.user a) = some t) : t.member ∈ r.namedReferences a :=
  List.mem_append_right _ (List.mem_map_of_mem (Option.mem_toList.2 h))

/-! ## Above a type -/

/-- Only user types have types above them. -/
theorem SupertypeStep.exists_user (h : r.SupertypeStep t above) : ∃ id, t = .user id := by
  cases t with
  | user id => exact ⟨id, rfl⟩
  | primitive p => cases h
  | void => cases h
  | array m => cases h
  | imported name => cases h

theorem follows_of_supertypeStep (h : r.SupertypeStep (.user a) (.user b)) : ReflTransGen r.PointsTo a b :=
  follows_of_named (List.mem_append_left _ (List.mem_append_left _ h))

theorem follows_of_supertypeSteps (h : ReflTransGen r.SupertypeStep (.user a) (.user b)) :
    ReflTransGen r.PointsTo a b := by
  generalize hlast : TypeRef.user b = last at h
  induction h generalizing b with
  | refl => rw [TypeRef.user.inj hlast]
  | tail _ hstep ih =>
    -- The type before the last has a supertype, so it is a user type and points at the last.
    subst hlast
    obtain ⟨c, rfl⟩ := hstep.exists_user
    exact (ih rfl).trans (follows_of_supertypeStep hstep)

/-- The type of a field is reached from every type that has the field, its own or inherited. -/
theorem follows_of_field {f : Field} (hf : f ∈ r.allFields a) (hb : f.type.member = .user b) :
    ReflTransGen r.PointsTo a b := by
  obtain ⟨owner, howner, hf⟩ := mem_allFields_iff.1 hf
  exact (follows_of_supertypeSteps (mem_lineage_iff.1 howner)).trans
    (follows_of_named (hb ▸ mem_namedReferences_of_field hf))

/-! ## The catalogue -/

/-- Whether a set of types has all that its types point at. -/
def ClosedUnderReferences (r : Registry) (types : Set TypeId) : Prop :=
  ∀ a ∈ types, ∀ b ∈ r.referencedTypes a, b ∈ types

/-- The types that references lead to from some type, this type among them. -/
def catalogue (r : Registry) (id : TypeId) : Set TypeId := { i | ReflTransGen r.PointsTo id i }

theorem isLeast_catalogue (r : Registry) (id : TypeId) :
    IsLeast { types | id ∈ types ∧ r.ClosedUnderReferences types } (r.catalogue id) := by
  refine ⟨⟨.refl, fun a ha b hb => ReflTransGen.tail ha hb⟩, ?_⟩
  rintro types ⟨hid, hclosed⟩ i hi
  induction hi with
  | refl => exact hid
  | tail _ hstep ih => exact hclosed _ ih _ hstep

/-- The smallest set that has a type, and has all that its types point at, has every user type above the
type. Of each of its types it has the types of all fields, inherited ones included, and the target of an
alias, both behind their array layers. -/
theorem catalogue_complete (r : Registry) (id : TypeId) :
    IsLeast { types | id ∈ types ∧ r.ClosedUnderReferences types } (r.catalogue id) ∧
    (∀ i, .user i ∈ r.supertypes (.user id) → i ∈ r.catalogue id) ∧
    ∀ t ∈ r.catalogue id,
      (∀ f ∈ r.allFields t, ∀ i, f.type.member = .user i → i ∈ r.catalogue id) ∧
      ∀ target i, r.aliasTarget? (.user t) = some target → target.member = .user i → i ∈ r.catalogue id := by
  refine ⟨r.isLeast_catalogue id, fun i hi => ?_, fun t ht => ⟨fun f hf i hi => ?_, fun target i htarget hi => ?_⟩⟩
  · exact follows_of_supertypeSteps (mem_supertypes_iff.1 hi).2.to_reflTransGen
  · exact ht.trans (follows_of_field hf hi)
  · exact ht.trans (follows_of_named (hi ▸ mem_namedReferences_of_target htarget))

/-- A line of an order refers to nothing but the order, and the order back to its lines and to an alias of
its entity, which inherits from the order again. What is gathered from a line are the tags of the entity, and
the type that an extension gives to the total of the order. -/
theorem catalogue_complete_line :
    let order : ObjectDefinition :=
      { fields := [{ name := "lines", type := .array (.user ⟨1⟩) }, { name := "total", type := .primitive .decimal }],
        inherits := [.user ⟨2⟩] }
    let line : ObjectDefinition := { fields := [{ name := "order", type := .user ⟨0⟩ }] }
    let entity : ObjectDefinition :=
      { fields := [{ name := "tags", type := .array (.array (.user ⟨4⟩)) }], inherits := [.user ⟨0⟩] }
    let refined : ObjectExtension := { fields := [{ name := "total", refinement := some { type := .user ⟨5⟩ } }] }
    let r : Registry := { records := [
      ⟨.object ⟨.ofParts "pay" "Order", some order, [refined]⟩, .unknown⟩,
      ⟨.object (.defined (.ofParts "pay" "Line") line), .unknown⟩,
      ⟨.typeAlias (.defined (.ofParts "pay" "Base") { target := .user ⟨3⟩ }), .unknown⟩,
      ⟨.object (.defined (.ofParts "pay" "Entity") entity), .unknown⟩,
      ⟨.object (.defined (.ofParts "pay" "Tag") { fields := [] }), .unknown⟩,
      ⟨.object (.defined (.ofParts "pay" "Money") { fields := [] }), .unknown⟩] }
    r.referencedTypes ⟨1⟩ = [⟨0⟩] ∧ r.isCyclic (.user ⟨0⟩) = true ∧
      (⟨3⟩ : TypeId) ∈ r.catalogue ⟨1⟩ ∧ (⟨4⟩ : TypeId) ∈ r.catalogue ⟨1⟩ ∧ (⟨5⟩ : TypeId) ∈ r.catalogue ⟨1⟩ := by
  intro order line entity refined r
  obtain ⟨hleast, -, hnamed⟩ := catalogue_complete r ⟨1⟩
  obtain ⟨f, hf, hback⟩ : ∃ f ∈ r.allFields ⟨1⟩, f.type.member = .user ⟨0⟩ := by decide +kernel
  have horder : (⟨0⟩ : TypeId) ∈ r.catalogue ⟨1⟩ := (hnamed _ hleast.1.1).1 f hf _ hback
  obtain ⟨g, hg, htag⟩ : ∃ f ∈ r.allFields ⟨0⟩, f.type.member = .user ⟨4⟩ := by decide +kernel
  obtain ⟨h, hh, hmoney⟩ : ∃ f ∈ r.allFields ⟨0⟩, f.type.member = .user ⟨5⟩ := by decide +kernel
  obtain ⟨-, habove, -⟩ := catalogue_complete r ⟨0⟩
  have hentity : ReflTransGen r.PointsTo ⟨0⟩ ⟨3⟩ := habove ⟨3⟩ (by decide +kernel)
  exact ⟨by decide +kernel, by decide +kernel, horder.trans hentity, (hnamed _ horder).1 g hg _ htag,
    (hnamed _ horder).1 h hh _ hmoney⟩

end SemanticSchema.Registry
