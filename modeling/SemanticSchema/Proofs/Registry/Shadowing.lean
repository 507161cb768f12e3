import SemanticSchema.Proofs.Registry.InheritanceReports
import SemanticSchema.Proofs.Registry.Lineage

/-!
# Shadowed fields

An own field is shadowed when another object type above has a field of its name. The lookup of the name then
finds an inherited field, and the first own field of the name otherwise.

* `Registry.InheritsField`, `Registry.mem_inheritedFields_iff` : the fields that a type has from other types;
* `Registry.mem_shadowedFields_iff` : the own fields that repeat the name of one of them;
* `Registry.field?_of_shadowed`, `Registry.field?_of_not_shadowed` : where the lookup of its name ends;
* `Registry.filter_inheritanceReports_shadowed` : the reports of shadowed fields;
* `Registry.shadowing_exact` : the list of shadowed fields, the lookup and the reports agree.
-/

set_option autoImplicit false

namespace SemanticSchema.Registry

open Relation

variable {r : Registry} {id : TypeId} {f g : Field}

/-! ## Inherited fields -/

theorem ownFields_of_not_object {x : Record} (hget : r.get? id = some x) (hkind : x.body.kind ≠ .object) :
    r.ownFields id = [] := by
  refine List.eq_nil_iff_forall_not_mem.2 fun f hf => ?_
  obtain ⟨t, ht, -⟩ := mem_ownFields_iff.1 hf
  obtain ⟨origin, ht⟩ := object?_eq_some_iff.1 ht
  rw [hget] at ht
  cases ht
  exact hkind rfl

/-- Whether another object type above a type has a field, as its extensions make it. -/
def InheritsField (r : Registry) (id : TypeId) (g : Field) : Prop :=
  ∃ above t, above ≠ id ∧ TransGen r.SupertypeStep (.user id) (.user above) ∧ r.object? above = some t ∧
    g ∈ ObjectType.fields t

theorem mem_inheritedFields_iff : g ∈ r.inheritedFields id ↔ r.InheritsField id g := by
  rw [inheritedFields, List.mem_flatMap]
  constructor
  · rintro ⟨above, habove, hg⟩
    obtain ⟨hne, hsteps⟩ := mem_userSupertypes_iff.1 habove
    obtain ⟨o, ho, hg⟩ := mem_ownFields_iff.1 hg
    exact ⟨above, o, hne, hsteps, ho, hg⟩
  · rintro ⟨above, o, hne, hsteps, ho, hg⟩
    exact ⟨above, mem_userSupertypes_iff.2 ⟨hne, hsteps⟩, mem_ownFields_iff.2 ⟨o, ho, hg⟩⟩

/-- An own field is shadowed by the name alone. -/
theorem mem_shadowedFields_iff :
    f ∈ r.shadowedFields id ↔ f ∈ r.ownFields id ∧ ∃ g, r.InheritsField id g ∧ g.name = f.name := by
  simp only [shadowedFields, List.mem_filter, List.contains_iff_mem, List.mem_map, mem_inheritedFields_iff]

/-! ## The lookup -/

theorem field?_of_shadowed (h : f ∈ r.shadowedFields id) :
    ∃ g, r.InheritsField id g ∧ g.name = f.name ∧ r.field? id f.name = some g := by
  obtain ⟨-, e, he, hname⟩ := mem_shadowedFields_iff.1 h
  obtain ⟨g, hg⟩ : ∃ g, (r.inheritedFields id).find? (·.name == f.name) = some g := by
    rw [← Option.isSome_iff_exists, List.find?_isSome]
    exact ⟨e, mem_inheritedFields_iff.2 he, beq_iff_eq.2 hname⟩
  refine ⟨g, mem_inheritedFields_iff.1 (List.mem_of_find?_eq_some hg), by simpa using List.find?_some hg, ?_⟩
  rw [field?, allFields, List.find?_append, hg, Option.some_or]

theorem field?_of_not_shadowed (hf : f ∈ r.ownFields id) (h : f ∉ r.shadowedFields id) :
    ∃ before g after, r.ownFields id = before ++ g :: after ∧ (∀ e ∈ before, e.name ≠ f.name) ∧ g.name = f.name ∧
      r.field? id f.name = some g := by
  have hnone : (r.inheritedFields id).find? (·.name == f.name) = none :=
    List.find?_eq_none.2 fun g hg hname =>
      h (mem_shadowedFields_iff.2 ⟨hf, g, mem_inheritedFields_iff.1 hg, beq_iff_eq.1 hname⟩)
  obtain ⟨g, hg⟩ : ∃ g, (r.ownFields id).find? (·.name == f.name) = some g := by
    rw [← Option.isSome_iff_exists, List.find?_isSome]
    exact ⟨f, hf, beq_self_eq_true _⟩
  obtain ⟨hname, before, after, hfields, hbefore⟩ := List.find?_eq_some_iff_append.1 hg
  refine ⟨before, g, after, hfields, fun e he => by simpa using hbefore e he, beq_iff_eq.1 hname, ?_⟩
  rw [field?, allFields, List.find?_append, hnone, Option.none_or, hg]

/-! ## Reports -/

/-- The shadowed fields are the own fields without those that are not shadowed. -/
theorem exists_unshadowed (r : Registry) (id : TypeId) : ∃ others,
    (r.shadowedFields id ++ others).Perm (r.ownFields id) ∧ ∀ f ∈ others, f ∉ r.shadowedFields id := by
  refine ⟨_, List.filter_append_perm .., fun f hf hshadowed => ?_⟩
  have hother := (List.mem_filter.1 hf).2
  rw [(List.mem_filter.1 hshadowed).2] at hother
  cases hother

/-- Only object types have fields that may be shadowed. -/
theorem filter_inheritanceReports_shadowed (r : Registry) (p : Policy) :
    (r.inheritanceReports p).filter (·.problem = .shadowedField) =
      (r.definedSlots.filter fun slot => slot.2.body.kind = .object).flatMap fun slot =>
        r.shadowReports p slot.1 slot.2 := by
  rw [inheritanceReports, List.filter_flatMap, ← flatMap_ite]
  refine List.flatMap_congr fun slot hslot => ?_
  obtain ⟨hget, -⟩ := mem_definedSlots.1 hslot
  have hgroup : (r.inheritanceReportsOn p slot.1 slot.2).filter (·.problem = .shadowedField) =
      if Inherits slot.2 then r.shadowReports p slot.1 slot.2 else [] := by
    rw [filter_inheritanceReportsOn]
    rfl
  rw [hgroup]
  by_cases hkind : slot.2.body.kind = .object
  · have hinherits : Inherits slot.2 := Or.inl hkind
    rw [if_pos hinherits, if_pos hkind]
  · have hnone : r.shadowReports p slot.1 slot.2 = [] := by
      simp [shadowReports, shadowedFields, ownFields_of_not_object hget hkind]
    rw [hnone, ite_self, ite_self]

/-- An own field of an object type is shadowed just when another object type above has a field of its name.
Its name is then looked up to a field of such a type, and otherwise to the first own field that has it. If
the policy asks for them, the reports are one for each shadowed field of each defined object type, at the
field and with the severity of the policy; if it does not, there are none. -/
theorem shadowing_exact (r : Registry) :
    (∀ id, ∀ f ∈ r.ownFields id,
      (f ∈ r.shadowedFields id ↔ ∃ g, r.InheritsField id g ∧ g.name = f.name) ∧
      (f ∉ r.shadowedFields id → ∃ before g after, r.ownFields id = before ++ g :: after ∧
        (∀ e ∈ before, e.name ≠ f.name) ∧ g.name = f.name ∧ r.field? id f.name = some g) ∧
      (f ∈ r.shadowedFields id → ∃ g, r.InheritsField id g ∧ g.name = f.name ∧ r.field? id f.name = some g)) ∧
    (∀ id, ∃ others, (r.shadowedFields id ++ others).Perm (r.ownFields id) ∧
      ∀ f ∈ others, f ∉ r.shadowedFields id) ∧
    ∃ objects : List (TypeId × Record),
      objects.Pairwise (fun slot slot' => slot.1.slot < slot'.1.slot) ∧
      (∀ id x, (id, x) ∈ objects ↔ r.get? id = some x ∧ x.isDefined = true ∧ x.body.kind = .object) ∧
      ∀ p : Policy, (r.inheritanceReports p).filter (·.problem = .shadowedField) =
        match p.shadowedFields with
        | none => []
        | some severity => objects.flatMap fun slot => (r.shadowedFields slot.1).map fun f =>
          ⟨.shadowedField, severity, f.span,
            "Field " ++ f.name ++ " on " ++ slot.2.name.display ++ " repeats the name of an inherited field", [], []⟩ := by
  refine ⟨fun id f hf => ⟨mem_shadowedFields_iff.trans (and_iff_right hf), field?_of_not_shadowed hf,
    field?_of_shadowed⟩, r.exists_unshadowed, r.definedSlots.filter (·.2.body.kind = .object),
    r.pairwise_definedSlots.filter _, fun id x => ?_, fun p => ?_⟩
  · rw [List.mem_filter, mem_definedSlots, decide_eq_true_eq, and_assoc]
  · rw [filter_inheritanceReports_shadowed]
    unfold shadowReports
    cases p.shadowedFields with
    | none => simp
    | some severity =>
      simp only [Option.toList_some, List.flatMap_singleton]
      rfl

/-- An order has two fields by the name that its entity has one by; it inherits from the entity by an alias,
and the entity from the order. Each repeats the identifier of the other, and the order has its total alone. -/
theorem shadowing_exact_order :
    let field (name : String) (type : Primitive) : Field := { name := name, type := .primitive type }
    let order : ObjectDefinition :=
      { fields := [field "id" .int, field "total" .decimal, field "id" .instant], inherits := [.user ⟨1⟩] }
    let entity : ObjectDefinition := { fields := [field "id" .string], inherits := [.user ⟨0⟩] }
    let r : Registry := { records := [
      ⟨.object (.defined (.ofParts "pay" "Order") order), .unknown⟩,
      ⟨.typeAlias (.defined (.ofParts "pay" "Base") { target := .user ⟨2⟩ }), .unknown⟩,
      ⟨.object (.defined (.ofParts "pay" "Entity") entity), .unknown⟩] }
    (∃ f ∈ r.shadowedFields ⟨0⟩, f.type = .primitive .instant ∧ f ∈ r.ownFields ⟨0⟩ ∧
      ∃ g, r.InheritsField ⟨0⟩ g ∧ g.name = f.name ∧ r.field? ⟨0⟩ f.name = some g) ∧
    (∃ f ∈ r.ownFields ⟨0⟩, f.name = "total" ∧ f ∉ r.shadowedFields ⟨0⟩ ∧
      ∃ before g after, r.ownFields ⟨0⟩ = before ++ g :: after ∧ (∀ e ∈ before, e.name ≠ f.name) ∧
        g.name = f.name ∧ r.field? ⟨0⟩ f.name = some g) ∧
    ((r.inheritanceReports { shadowedFields := some .info }).filter (·.problem = .shadowedField)).map (·.message) =
      ["Order", "Order", "Entity"].map fun name =>
        "Field id on pay." ++ name ++ " repeats the name of an inherited field" := by
  intro field order entity r
  obtain ⟨hfields, -, -⟩ := shadowing_exact r
  obtain ⟨f, hf, htype⟩ : ∃ f ∈ r.shadowedFields ⟨0⟩, f.type = .primitive .instant := by decide +kernel
  obtain ⟨g, hg, hname, hnone⟩ : ∃ g ∈ r.ownFields ⟨0⟩, g.name = "total" ∧
    ∀ e ∈ r.shadowedFields ⟨0⟩, e.name ≠ g.name := by decide +kernel
  have hown : f ∈ r.ownFields ⟨0⟩ := (mem_shadowedFields_iff.1 hf).1
  have hg' : g ∉ r.shadowedFields ⟨0⟩ := fun h => hnone g h rfl
  exact ⟨⟨f, hf, htype, hown, (hfields ⟨0⟩ f hown).2.2 hf⟩, ⟨g, hg, hname, hg', (hfields ⟨0⟩ g hg).2.1 hg'⟩,
    by decide +kernel⟩

end SemanticSchema.Registry
