import SemanticSchema.Proofs.Registry.Supertypes

/-!
# Lineages

The user types at and above a user type, and the fields that a type has from them.

* `Registry.lineage`, `Registry.mem_lineage_iff` : the user types that the steps up lead to, each once;
* `Registry.allFields_perm_lineage` : the fields of a type are the own fields of its lineage;
* `Registry.lineage_subset` : a type has in its lineage those of the types above it;
* `Registry.assignability_inherits_fields` : being assignable is a preorder, and what is assignable to a
  type has its fields.
-/

set_option autoImplicit false

namespace SemanticSchema.Registry

open Relation

variable {r : Registry} {id i a b : TypeId}

/-- A user type and those above it, in the order of the walk. -/
def lineage (r : Registry) (id : TypeId) : List TypeId := id :: (r.supertypes (.user id)).filterMap (·.userId?)

theorem mem_lineage_iff : i ∈ r.lineage id ↔ ReflTransGen r.SupertypeStep (.user id) (.user i) := by
  rw [← isAssignable_iff, isAssignable, Bool.or_eq_true, beq_iff_eq, List.contains_iff_mem, lineage, List.mem_cons,
    TypeRef.mem_userIds_iff]
  exact or_congr_left ⟨fun h => congrArg TypeRef.user h.symm, fun h => (TypeRef.user.inj h).symm⟩

theorem nodup_lineage (r : Registry) (id : TypeId) : (r.lineage id).Nodup := by
  refine List.nodup_cons.2 ⟨?_, ?_⟩
  · exact fun hmem => (mem_userSupertypes_iff.1 hmem).1 rfl
  · -- Different types have different slots, so none of them becomes the same as another.
    refine (r.nodup_walkUp _ _).filterMap fun t u i ht hu => ?_
    rw [TypeRef.userId?_eq_some_iff.1 ht, TypeRef.userId?_eq_some_iff.1 hu]

theorem lineage_subset (h : r.isAssignable (.user a) (.user b) = true) : r.lineage b ⊆ r.lineage a :=
  fun _ hi => mem_lineage_iff.2 ((isAssignable_iff.1 h).trans (mem_lineage_iff.1 hi))

/-! ## Fields -/

theorem allFields_perm_lineage (r : Registry) (id : TypeId) :
    (r.allFields id).Perm ((r.lineage id).flatMap r.ownFields) := by
  rw [lineage, List.flatMap_cons]
  exact List.perm_append_comm

theorem mem_allFields_iff {f : Field} : f ∈ r.allFields id ↔ ∃ i ∈ r.lineage id, f ∈ r.ownFields i := by
  rw [(r.allFields_perm_lineage id).mem_iff, List.mem_flatMap]

/-- Types that are no object types have no fields to add. -/
theorem flatMap_ownFields_objects (r : Registry) (ids : List TypeId) :
    (ids.filter fun i => (r.object? i).isSome).flatMap r.ownFields = ids.flatMap r.ownFields := by
  induction ids with
  | nil => rfl
  | cons i ids ih =>
    rw [List.filter_cons, List.flatMap_cons]
    cases hi : r.object? i with
    | none =>
      have hown : r.ownFields i = [] := by rw [ownFields, hi]
      rw [hown, if_neg (by simp), ih, List.nil_append]
    | some t => rw [if_pos Option.isSome_some, List.flatMap_cons, ih]

theorem hasField_iff {name : String} : r.hasField id name = true ↔ ∃ f ∈ r.allFields id, f.name = name := by
  rw [hasField, field?, List.find?_isSome]
  simp only [beq_iff_eq]

theorem allFields_subset (h : r.isAssignable (.user a) (.user b) = true) : r.allFields b ⊆ r.allFields a := by
  intro f hf
  obtain ⟨i, hi, hf⟩ := mem_allFields_iff.1 hf
  exact mem_allFields_iff.2 ⟨i, lineage_subset h hi, hf⟩

/-- Every type is assignable to itself, and to what a type is assignable to that it is assignable to. The
fields of a type are the own fields of the object types at and above it, each of these giving its fields
once. So a user type that is assignable to another has all fields of the other. -/
theorem assignability_inherits_fields (r : Registry) :
    (∀ t, r.isAssignable t t = true) ∧
    (∀ t u v, r.isAssignable t u = true → r.isAssignable u v = true → r.isAssignable t v = true) ∧
    (∀ id, ∃ objects : List TypeId, objects.Nodup ∧
      (∀ i, i ∈ objects ↔ (∃ t, r.object? i = some t) ∧ ReflTransGen r.SupertypeStep (.user id) (.user i)) ∧
      (r.allFields id).Perm (objects.flatMap r.ownFields)) ∧
    ∀ a b, r.isAssignable (.user a) (.user b) = true →
      (∀ f ∈ r.allFields b, f ∈ r.allFields a) ∧
      ∀ name, r.hasField b name = true → r.hasField a name = true := by
  refine ⟨fun t => isAssignable_iff.2 .refl, fun t u v htu huv => ?_, fun id => ?_, fun a b h => ⟨?_, fun name hb => ?_⟩⟩
  · exact isAssignable_iff.2 ((isAssignable_iff.1 htu).trans (isAssignable_iff.1 huv))
  · refine ⟨(r.lineage id).filter fun i => (r.object? i).isSome, (r.nodup_lineage id).filter _, fun i => ?_, ?_⟩
    · rw [List.mem_filter, mem_lineage_iff, Option.isSome_iff_exists, and_comm]
    · rw [flatMap_ownFields_objects]
      exact r.allFields_perm_lineage id
  · exact allFields_subset h
  · obtain ⟨f, hf, hname⟩ := hasField_iff.1 hb
    exact hasField_iff.2 ⟨f, allFields_subset h hf, hname⟩

/-- The refund has the fields of the entity, which two ways lead to, once; the way goes on to the order,
which the refund inherits from itself. -/
theorem assignability_inherits_fields_entangled :
    entangled.isAssignable (.user ⟨4⟩) (.user ⟨3⟩) = true ∧ entangled.hasField ⟨3⟩ "id" = true ∧
      entangled.hasField ⟨4⟩ "id" = true ∧
      (entangled.allFields ⟨4⟩).map (·.name) = ["total", "id", "reason"] := by
  obtain ⟨-, htrans, -, hfields⟩ := assignability_inherits_fields entangled
  have h : entangled.isAssignable (.user ⟨4⟩) (.user ⟨3⟩) = true :=
    htrans _ (.user ⟨0⟩) _ (by decide +kernel) (by decide +kernel)
  have hid : entangled.hasField ⟨3⟩ "id" = true := by decide +kernel
  exact ⟨h, hid, (hfields _ _ h).2 "id" hid, by decide +kernel⟩

end SemanticSchema.Registry
