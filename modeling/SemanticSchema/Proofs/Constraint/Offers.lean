import SemanticSchema.Document
import SemanticSchema.Proofs.Constraint.WellFormed
import SemanticSchema.Proofs.Registry.Ends
import SemanticSchema.Proofs.Registry.Slots

/-!
# What the validators are offered

The constraints of a document, each with the place where it stands, in the order in which the validators
are given them.

* `Document.Declares` : the fields of the object types as extended, the parameters and the contracts;
* `Document.offers`, `Document.mem_offers_iff` : the constraints on these and no others;
* `Document.constraintReports_eq` : the reports of the validators on each of them, put together;
* `Registry.reports_of_missing_field` : a constant for a field that there is not is reported as an error.
-/

set_option autoImplicit false

namespace SemanticSchema

/-- The places of a document where constraints are looked for: the own fields of its object types, the
parameters of its operations, and what these promise of their results. -/
inductive Document.Declares (d : Document) : ConstraintSite → ConstraintTarget → Prop
  | field {id : TypeId} {f : Field} (hf : f ∈ d.registry.ownFields id) : Declares d (.field id) (.field f)
  | parameter {s : Service} {o : Operation} {p : Parameter} (hs : s ∈ d.services) (ho : o ∈ s.operations)
    (hp : p ∈ o.params) : Declares d (.parameter o) (.parameter p)
  | contract {s : Service} {o : Operation} {c : Contract} (hs : s ∈ d.services) (ho : o ∈ s.operations)
    (hc : o.contract = some c) : Declares d (.returnContract o) (.contract c)

/-- A constraint and the place where it stands. -/
structure Offer where
  site : ConstraintSite
  target : ConstraintTarget
  constraint : Constraint

/-- The constraints on one target. -/
def ConstraintTarget.offers (target : ConstraintTarget) (site : ConstraintSite) : List Offer :=
  target.constraints.map fun c => ⟨site, target, c⟩

/-- The constraints on the contract and the parameters of an operation. -/
def Operation.offers (o : Operation) : List Offer :=
  o.contract.toList.flatMap (fun c => ConstraintTarget.offers (.contract c) (.returnContract o))
    ++ o.params.flatMap fun p => ConstraintTarget.offers (.parameter p) (.parameter o)

/-- The constraints on the fields of the object types. -/
def Registry.offers (r : Registry) : List Offer :=
  r.definedSlots.flatMap fun slot =>
    (r.ownFields slot.1).flatMap fun f => ConstraintTarget.offers (.field f) (.field slot.1)

/-- The constraints of a document, in the order in which the validators are given them. -/
def Document.offers (d : Document) : List Offer :=
  d.registry.offers ++ d.services.flatMap fun s => s.operations.flatMap Operation.offers

variable {x : Offer} {r : Registry} {d : Document}

theorem ConstraintTarget.mem_offers_iff {target : ConstraintTarget} {site : ConstraintSite} :
    x ∈ target.offers site ↔ x.site = site ∧ x.target = target ∧ x.constraint ∈ x.target.constraints := by
  unfold offers
  rw [List.mem_map]
  constructor
  · rintro ⟨c, hc, rfl⟩
    exact ⟨rfl, rfl, hc⟩
  · rintro ⟨rfl, rfl, hc⟩
    exact ⟨x.constraint, hc, rfl⟩

theorem Registry.exists_slot_of_mem_ownFields {id : TypeId} {f : Field} (h : f ∈ r.ownFields id) :
    ∃ y, (id, y) ∈ r.definedSlots := by
  obtain ⟨t, ht, hf⟩ := mem_ownFields_iff.1 h
  obtain ⟨origin, hget⟩ := object?_eq_some_iff.1 ht
  refine ⟨_, mem_definedSlots.2 ⟨hget, ?_⟩⟩
  cases hd : t.definition with
  | some definition => exact Option.isSome_of_eq_some hd
  | none => simp [ObjectType.fields, ObjectType.declaredFields, hd] at hf

namespace Document

theorem mem_offers_iff : x ∈ d.offers ↔ d.Declares x.site x.target ∧ x.constraint ∈ x.target.constraints := by
  obtain ⟨site, target, c⟩ := x
  simp only [offers, Registry.offers, Operation.offers, List.mem_append, List.mem_flatMap,
    ConstraintTarget.mem_offers_iff]
  constructor
  · rintro (⟨slot, -, f, hf, rfl, rfl, hc⟩ | ⟨s, hs, o, ho, ⟨k, hk, rfl, rfl, hc⟩ | ⟨p, hp, rfl, rfl, hc⟩⟩)
    · exact ⟨.field hf, hc⟩
    · exact ⟨.contract hs ho (Option.mem_toList.1 hk), hc⟩
    · exact ⟨.parameter hs ho hp, hc⟩
  · rintro ⟨hplace, hc⟩
    cases hplace with
    | field hf =>
      obtain ⟨y, hy⟩ := Registry.exists_slot_of_mem_ownFields hf
      exact Or.inl ⟨_, hy, _, hf, rfl, rfl, hc⟩
    | parameter hs ho hp => exact Or.inr ⟨_, hs, _, ho, Or.inr ⟨_, hp, rfl, rfl, hc⟩⟩
    | contract hs ho hk => exact Or.inr ⟨_, hs, _, ho, Or.inl ⟨_, Option.mem_toList.2 hk, rfl, rfl, hc⟩⟩

end Document

/-! ## Reports -/

namespace Registry

theorem targetReports_eq (r : Registry) (ps : Providers) (site : ConstraintSite) (target : ConstraintTarget) :
    r.targetReports ps site target =
      (target.offers site).flatMap fun x => r.constraintReportsOn ps x.site x.target x.constraint := by
  simp only [targetReports, ConstraintTarget.offers, List.flatMap_map]

theorem fieldReports_eq (r : Registry) (ps : Providers) :
    r.fieldReports ps = r.offers.flatMap fun x => r.constraintReportsOn ps x.site x.target x.constraint := by
  simp only [fieldReports, targetReports_eq, offers, List.flatMap_assoc]

theorem operationReports_eq (r : Registry) (ps : Providers) (o : Operation) :
    r.operationReports ps o = o.offers.flatMap fun x => r.constraintReportsOn ps x.site x.target x.constraint := by
  simp only [operationReports, targetReports_eq, Operation.offers, List.flatMap_append, List.flatMap_assoc]

end Registry

/-- The validators report on what they are offered, in that order. -/
theorem Document.constraintReports_eq (d : Document) (ps : Providers) :
    d.registry.constraintReports ps d.services =
      d.offers.flatMap fun x => d.registry.constraintReportsOn ps x.site x.target x.constraint := by
  have hoperations : d.registry.operationReports ps =
      fun o => o.offers.flatMap fun x => d.registry.constraintReportsOn ps x.site x.target x.constraint :=
    funext (d.registry.operationReports_eq ps)
  simp only [Registry.constraintReports, Registry.fieldReports_eq, hoperations, offers, List.flatMap_append,
    List.flatMap_assoc]

/-! ## Constants for fields that there are not -/

namespace Registry

variable {target : ConstraintTarget} {object : TypeId} {field : String}

/-- A path of one name leads to a field of that name or nowhere. -/
theorem resolve_of_missing_field (h : ∀ f ∈ r.allFields object, f.name ≠ field) :
    ∃ e, (PropertyRef.byPath ⟨[field]⟩).resolve r object = .error e := by
  by_cases hthis : field = "this"
  · -- The name is dropped as the word for the value itself, and an empty path leads nowhere.
    subst hthis
    exact ⟨_, rfl⟩
  · have hnone : r.field? object field = none :=
      List.find?_eq_none.2 fun f hf => by simpa using h f hf
    refine ⟨.noSuchField (r.nameOf (.user object)) field, ?_⟩
    simp only [PropertyRef.resolve, PropertyPath.withoutThis, if_neg hthis, fieldOnPath, fieldAlong, fieldNamed,
      hnone]

/-- A constant for a field that the object type behind the target has not is malformed. -/
theorem reports_of_missing_field (site : ConstraintSite) (value : Literal) (span : Span)
    (hobject : r.UnwrapsTo target.type object) (hmissing : ∀ f ∈ r.allFields object, f.name ≠ field) :
    ∃ e, r.constraintReportsOn .standard site target (.namedConstant field value span) =
      [(Malformation.property e).toDiagnostic r (.namedConstant field value span) target] := by
  obtain ⟨e, he⟩ := resolve_of_missing_field hmissing
  refine ⟨e, ?_⟩
  rw [constraintReportsOn_standard]
  simp only [faults, constantFaults, isExternal_of_unwrapsTo hobject, propertyFaults,
    unwrapObject?_eq_some_iff.2 hobject, he]
  rfl

end Registry

end SemanticSchema
