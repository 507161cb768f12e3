import SemanticSchema.Proofs.Builder.Finish
import SemanticSchema.Proofs.Builder.Run
import SemanticSchema.Proofs.Constraint.Offers
import SemanticSchema.Proofs.Object.Equality
import SemanticSchema.Proofs.Registry.Growth

/-!
# From the clauses of a declaration to the check

The constraints that are built for an accepted declaration stay where they were put, and the validators
are offered them when the schema is finished.

* `ConstraintTarget.Matches` : the same target, or fields that differ neither in name nor in constraints;
* `Builder.Holds` : where constraints stand in a schema that is being built;
* `Builder.Retains`, `Builder.retains_run` : what is held is held from then on;
* `Builder.Attaches`, `Builder.holds_of_attaches` : what an event attaches is held behind it;
* `Builder.model`, `Builder.declares_of_holds` : what is held is declared in the finished model;
* `Builder.exists_offers_of_attaches` : so the validators are offered what an event attached;
* `Builder.finish_offers` : the offers that the validators get, and what comes of one that fails.
-/

set_option autoImplicit false

namespace SemanticSchema

/-! ## Targets that match -/

/-- The same target, or fields of one name with the same constraints. -/
inductive ConstraintTarget.Matches : ConstraintTarget → ConstraintTarget → Prop
  | refl (target : ConstraintTarget) : Matches target target
  | field {f g : Field} (hname : f.name = g.name) (hconstraints : f.constraints = g.constraints) :
    Matches (.field f) (.field g)

namespace ConstraintTarget.Matches

theorem trans {t u v : ConstraintTarget} (h : t.Matches u) (h' : u.Matches v) : t.Matches v := by
  cases h with
  | refl => exact h'
  | field hname hconstraints =>
    cases h' with
    | refl => exact .field hname hconstraints
    | field hname' hconstraints' => exact .field (hname.trans hname') (hconstraints.trans hconstraints')

theorem constraints_eq {t u : ConstraintTarget} (h : t.Matches u) : t.constraints = u.constraints := by
  cases h with
  | refl => rfl
  | field hname hconstraints => exact hconstraints

/-- An extension may give a field another type, but neither another name nor other constraints. -/
theorem mergeField (t : ObjectType) (f : Field) : Matches (.field (t.mergeField f)) (.field f) := by
  unfold ObjectType.mergeField
  dsimp only
  split <;> exact .field rfl rfl

end ConstraintTarget.Matches

namespace Field

/-- A field that is dropped leaves one behind that is the same. -/
theorem exists_kept_of_mem {f : Field} {fields : List Field} (h : f ∈ fields) :
    ∃ g ∈ collapse fields, (ConstraintTarget.field g).Matches (.field f) := by
  obtain ⟨g, hg, hsame⟩ := exists_same_of_mem h
  exact ⟨g, hg, .field hsame.name hsame.constraints⟩

end Field

theorem Registry.exists_ownField_of_definition {r : Registry} {id : TypeId} {x : Record} {d : ObjectDefinition}
    {f : Field} (hx : r.get? id = some x) (hd : x.body.definition? = some (.object d)) (hf : f ∈ d.fields) :
    ∃ g ∈ r.ownFields id, (ConstraintTarget.field g).Matches (.field f) := by
  obtain ⟨body, origin⟩ := x
  cases body with
  | object t =>
    obtain ⟨d', hdefinition, hd'⟩ := Option.map_eq_some_iff.1 hd
    cases hd'
    refine ⟨t.mergeField f, mem_ownFields_iff.2 ⟨t, object?_eq_some_iff.2 ⟨origin, hx⟩, ?_⟩, .mergeField t f⟩
    simp only [ObjectType.fields, ObjectType.declaredFields, hdefinition]
    exact List.mem_map_of_mem hf
  | enum t => simp [TypeBody.definition?] at hd
  | typeAlias t => simp [TypeBody.definition?] at hd
  | annotationType t => simp [TypeBody.definition?] at hd

/-! ## Services -/

namespace Service

variable {services : List Service} {new s t : Service}

theorem name_of_find? {name : QualifiedName} (h : find? services name = some s) : s.name = name := by
  have hname := List.find?_some h
  exact eq_of_beq hname

theorem mem_put (new : Service) (services : List Service) : new ∈ put new services := by
  induction services with
  | nil => exact List.mem_singleton_self new
  | cons s ss ih =>
    unfold put
    split_ifs
    · exact List.mem_cons_self
    · exact List.mem_cons_of_mem s ih

/-- A service that takes the place of one that it extends loses no operation. -/
theorem exists_mem_put (hfound : find? services new.name = some t) (hgrown : t.operations ⊆ new.operations)
    (hs : s ∈ services) : ∃ s' ∈ put new services, s.operations ⊆ s'.operations := by
  induction services with
  | nil => cases hs
  | cons u us ih =>
    unfold put
    unfold find? at hfound
    rw [List.find?_cons] at hfound
    by_cases hname : u.name = new.name
    · rw [if_pos hname]
      rw [hname, beq_self_eq_true] at hfound
      cases hfound
      rcases List.mem_cons.1 hs with rfl | htail
      · exact ⟨new, List.mem_cons_self, hgrown⟩
      · exact ⟨s, List.mem_cons_of_mem new htail, List.Subset.refl _⟩
    · rw [if_neg hname]
      rw [beq_eq_false_iff_ne.2 hname] at hfound
      rcases List.mem_cons.1 hs with rfl | htail
      · exact ⟨s, List.mem_cons_self, List.Subset.refl _⟩
      · obtain ⟨s', hs', hsubset⟩ := ih hfound htail
        exact ⟨s', List.mem_cons_of_mem u hs', hsubset⟩

end Service

namespace Builder

variable {b b' : Builder} {site : ConstraintSite} {target : ConstraintTarget} {service : QualifiedName}

/-! ## What is held -/

/-- Where constraints stand in a schema that is being built: the fields in the definitions of its object
types, and the parameters and the contracts of its operations. -/
inductive Holds (b : Builder) : ConstraintSite → ConstraintTarget → Prop
  | field {id : TypeId} {x : Record} {d : ObjectDefinition} {f : Field} (hx : b.registry.get? id = some x)
    (hd : x.body.definition? = some (.object d)) (hf : f ∈ d.fields) : Holds b (.field id) (.field f)
  | parameter {s : Service} {o : Operation} {p : Parameter} (hs : s ∈ b.services) (ho : o ∈ s.operations)
    (hp : p ∈ o.params) : Holds b (.parameter o) (.parameter p)
  | contract {s : Service} {o : Operation} {c : Contract} (hs : s ∈ b.services) (ho : o ∈ s.operations)
    (hc : o.contract = some c) : Holds b (.returnContract o) (.contract c)

/-- Every record has at most grown, and no operation is lost. -/
structure Retains (b b' : Builder) : Prop where
  registry : b.registry.Grows b'.registry
  operations : ∀ s ∈ b.services, ∃ s' ∈ b'.services, s.operations ⊆ s'.operations

theorem Retains.trans {b₁ b₂ b₃ : Builder} (h : b₁.Retains b₂) (h' : b₂.Retains b₃) : b₁.Retains b₃ where
  registry := h.registry.trans h'.registry
  operations s hs := by
    obtain ⟨s', hs', hsubset⟩ := h.operations s hs
    obtain ⟨s'', hs'', hsubset'⟩ := h'.operations s' hs'
    exact ⟨s'', hs'', List.Subset.trans hsubset hsubset'⟩

theorem Advances.retains (h : b.Advances b') (hservices : b'.services = b.services) : b.Retains b' where
  registry := h.registry.grows
  operations s hs := ⟨s, hservices ▸ hs, List.Subset.refl _⟩

theorem Retains.refl (b : Builder) : b.Retains b := (Advances.refl b).retains rfl

theorem Holds.mono (h : b.Holds site target) (hretains : b.Retains b') : b'.Holds site target := by
  cases h with
  | field hx hd hf =>
    obtain ⟨y, hy, hgrows⟩ := hretains.registry _ _ hx
    exact .field hy (hgrows.definition _ hd) hf
  | parameter hs ho hp =>
    obtain ⟨s', hs', hsubset⟩ := hretains.operations _ hs
    exact .parameter hs' (hsubset ho) hp
  | contract hs ho hc =>
    obtain ⟨s', hs', hsubset⟩ := hretains.operations _ hs
    exact .contract hs' (hsubset ho) hc

/-! ## Operations of the builder -/

theorem services_buildFields (b : Builder) (ds : List FieldDeclaration) :
    (b.buildFields ds).2.services = b.services := by
  induction ds generalizing b with
  | nil => rfl
  | cons d ds ih => exact ih (b.buildClauses d.clauses).2

theorem services_declareType (b : Builder) (d : TypeDeclaration) : (b.declareType d).2.services = b.services := by
  rw [declareType_eq_install, install_snd]
  exact b.services_buildFields d.fields

theorem services_buildParameters (b : Builder) (ds : List ParameterDeclaration) :
    (b.buildParameters ds).2.services = b.services := by
  induction ds generalizing b with
  | nil => rfl
  | cons d ds ih => exact ih (b.buildClauses d.clauses).2

/-- An operation with its parameters and its contract built. -/
def buildOperation (b : Builder) (d : OperationDeclaration) : Operation × Builder :=
  let (params, b) := b.buildParameters d.params
  let (contract, b) := b.buildContract d.returns d.contract
  (d.toOperation params contract, b)

theorem declareOperation_eq (b : Builder) (service : QualifiedName) (d : OperationDeclaration) :
    b.declareOperation service d = (b.buildOperation d).2.addOperation service (b.buildOperation d).1 := rfl

theorem services_buildOperation (b : Builder) (d : OperationDeclaration) :
    (b.buildOperation d).2.services = b.services := by
  refine Eq.trans ?_ (b.services_buildParameters d.params)
  unfold buildOperation buildContract
  dsimp only
  split_ifs <;> rfl

theorem advances_buildOperation (hps : b.providers = .standard) (d : OperationDeclaration) :
    b.Advances (b.buildOperation d).2 := by
  have hparams := advances_buildParameters hps d.params
  exact hparams.trans (advances_buildContract (hparams.standard hps) d.returns d.contract)

theorem retains_addOperation (b : Builder) (service : QualifiedName) (o : Operation) :
    b.Retains (b.addOperation service o) := by
  unfold addOperation
  split
  · exact (advances_report b _).retains rfl
  · next s hs =>
    split_ifs with hknown
    · exact (advances_report b _).retains rfl
    · refine ⟨.refl b.registry, fun t ht => ?_⟩
      obtain rfl := Service.name_of_find? hs
      exact Service.exists_mem_put hs (List.subset_append_left s.operations [o]) ht

theorem retains_declareOperation (hps : b.providers = .standard) (service : QualifiedName)
    (d : OperationDeclaration) : b.Retains (b.declareOperation service d) :=
  ((advances_buildOperation hps d).retains (b.services_buildOperation d)).trans (retains_addOperation _ service _)

/-- The builder with a new service, before the operations of the service. -/
def addService (b : Builder) (d : ServiceDeclaration) : Builder :=
  { b with services := b.services ++ [d.toService] }

/-- A new service is declared by declaring its operations. -/
theorem declareService_eq_run {d : ServiceDeclaration} (hnew : Service.find? b.services d.name = none) :
    b.declareService d = (b.addService d).run (d.operations.map (.declareOperation d.name)) := by
  unfold declareService run
  rw [hnew, List.foldl_map]
  rfl

/-! ## Runs -/

theorem retains_declareOperations (hps : b.providers = .standard) (service : QualifiedName)
    (os : List OperationDeclaration) : b.Retains (b.run (os.map (.declareOperation service))) := by
  induction os generalizing b with
  | nil => exact .refl b
  | cons o os ih =>
    have ho := advances_declareOperation hps service o
    exact (retains_declareOperation hps service o).trans (ih (ho.standard hps))

theorem retains_declareService (hps : b.providers = .standard) (d : ServiceDeclaration) :
    b.Retains (b.declareService d) := by
  cases hfound : Service.find? b.services d.name with
  | some s =>
    have hservices : (b.declareService d).services = b.services := by
      unfold declareService
      rw [hfound]
      rfl
    exact (advances_declareService hps d).retains hservices
  | none =>
    have hadded : b.Retains (b.addService d) :=
      ⟨.refl b.registry, fun s hs => ⟨s, List.mem_append_left _ hs, List.Subset.refl _⟩⟩
    rw [declareService_eq_run hfound]
    exact hadded.trans (retains_declareOperations (b := b.addService d) hps d.name d.operations)

theorem retains_apply (hps : b.providers = .standard) (e : Event) : b.Retains (b.apply e) := by
  have hadvances := advances_apply hps e
  cases e with
  | resolveType name span => exact hadvances.retains rfl
  | addImport name => exact hadvances.retains rfl
  | type e =>
    cases e with
    | declare d => exact hadvances.retains (b.services_declareType d)
    | extend name x => exact hadvances.retains rfl
  | declareService d => exact retains_declareService hps d
  | declareOperation service d => exact retains_declareOperation hps service d
  | report d => exact hadvances.retains rfl
  | registry e => exact hadvances.retains rfl

theorem retains_run (hps : b.providers = .standard) (events : List Event) : b.Retains (b.run events) := by
  induction events generalizing b with
  | nil => exact .refl b
  | cons e es ih => exact (retains_apply hps e).trans (ih ((advances_apply hps e).standard hps))

theorem run_append (b : Builder) (before after : List Event) :
    b.run (before ++ after) = (b.run before).run after := List.foldl_append

/-! ## What is attached -/

/-- Whether a service takes an operation. -/
def Admits (b : Builder) (service : QualifiedName) (o : Operation) : Prop :=
  ∃ s, Service.find? b.services service = some s ∧ s.operation? o.name = none

/-- The constraints that an accepted declaration attaches, each to what it was built for. The operations
of a new service are declared one after another. -/
inductive Attaches : Builder → Event → ConstraintSite → ConstraintTarget → Prop
  | field {b b' : Builder} {d : ObjectDeclaration} {id : TypeId} {f : Field}
    (h : b.declareObject d = (some id, b')) (hf : f ∈ (b.buildFields d.fields).1) :
    Attaches b (.type (.declare (.object d))) (.field id) (.field f)
  | parameter {b : Builder} {service : QualifiedName} {d : OperationDeclaration} {p : Parameter}
    (h : b.Admits service (b.buildOperation d).1) (hp : p ∈ (b.buildOperation d).1.params) :
    Attaches b (.declareOperation service d) (.parameter (b.buildOperation d).1) (.parameter p)
  | contract {b : Builder} {service : QualifiedName} {d : OperationDeclaration} {c : Contract}
    (h : b.Admits service (b.buildOperation d).1) (hc : (b.buildOperation d).1.contract = some c) :
    Attaches b (.declareOperation service d) (.returnContract (b.buildOperation d).1) (.contract c)
  | service {b : Builder} {d : ServiceDeclaration} {before after : List OperationDeclaration}
    {o : OperationDeclaration} {site : ConstraintSite} {target : ConstraintTarget}
    (hnew : Service.find? b.services d.name = none) (hos : d.operations = before ++ o :: after)
    (h : Attaches ((b.addService d).run (before.map (.declareOperation d.name))) (.declareOperation d.name o)
      site target) : Attaches b (.declareService d) site target

theorem mem_operations_of_admits {d : OperationDeclaration} (h : b.Admits service (b.buildOperation d).1) :
    ∃ s ∈ (b.declareOperation service d).services, (b.buildOperation d).1 ∈ s.operations := by
  obtain ⟨s, hs, hnew⟩ := h
  rw [declareOperation_eq]
  unfold addOperation
  rw [b.services_buildOperation d, hs]
  dsimp only
  rw [hnew]
  exact ⟨_, Service.mem_put _ _, List.mem_append_right _ (List.mem_singleton_self _)⟩

theorem definition?_of_declareObject {d : ObjectDeclaration} {id : TypeId}
    (h : b.declareObject d = (some id, b')) : ∃ x, b'.registry.get? id = some x ∧ x.body.definition? =
      some (.object (.ofParts (b.buildFields d.fields).1 d.annotations d.modifiers d.inherits d.doc d.span)) := by
  change (b.buildFields d.fields).2.install d.name _ = _ at h
  unfold install at h
  split at h
  · next hregister =>
    cases h
    exact Registry.definition?_of_register hregister
  · cases h

/-- What an event attaches is held behind it. Of fields that agree the first is held for all. -/
theorem holds_of_attaches {e : Event} (hps : b.providers = .standard) (h : b.Attaches e site target) :
    ∃ held, (b.apply e).Holds site held ∧ held.Matches target := by
  induction h with
  | @field b b' d id f h hf =>
    obtain ⟨x, hx, hd⟩ := definition?_of_declareObject h
    obtain ⟨g, hg, hmatches⟩ := Field.exists_kept_of_mem hf
    have happly : b.apply (.type (.declare (.object d))) = b' := congrArg Prod.snd h
    rw [happly]
    exact ⟨_, .field hx hd hg, hmatches⟩
  | parameter h hp =>
    obtain ⟨s, hs, ho⟩ := mem_operations_of_admits h
    exact ⟨_, .parameter hs ho hp, .refl _⟩
  | contract h hc =>
    obtain ⟨s, hs, ho⟩ := mem_operations_of_admits h
    exact ⟨_, .contract hs ho hc, .refl _⟩
  | @service b d before after o site target hnew hos h ih =>
    have hbefore := advances_run hps (b := b.addService d) (before.map (.declareOperation d.name))
    obtain ⟨held, hheld, hmatches⟩ := ih (hbefore.standard hps)
    have happly : b.apply (.declareService d) =
        (((b.addService d).run (before.map (.declareOperation d.name))).apply (.declareOperation d.name o)).run
          (after.map (.declareOperation d.name)) := by
      refine (declareService_eq_run hnew).trans ?_
      rw [hos, List.map_append, run_append]
      rfl
    have hafter := (hbefore.trans (advances_apply (hbefore.standard hps) (.declareOperation d.name o))).standard hps
    rw [happly]
    exact ⟨held, hheld.mono (retains_run hafter _), hmatches⟩

/-! ## What is offered -/

/-- The model that is checked when the schema is finished. -/
def model (b : Builder) : Document := ⟨b.applyExtensions.registry, b.services⟩

/-- What is held is declared in the finished model, perhaps with another type. -/
theorem declares_of_holds (h : b.Holds site target) :
    ∃ declared, b.model.Declares site declared ∧ declared.Matches target := by
  cases h with
  | @field id x d f hx hd hf =>
    obtain ⟨y, hy, hxy⟩ := b.reaches_applyExtensions.grows _ _ hx
    obtain ⟨g, hg, hmatches⟩ := Registry.exists_ownField_of_definition hy (hxy.definition _ hd) hf
    exact ⟨_, .field hg, hmatches⟩
  | parameter hs ho hp => exact ⟨_, .parameter hs ho hp, .refl _⟩
  | contract hs ho hc => exact ⟨_, .contract hs ho hc, .refl _⟩

theorem document_of_finish {s : FinishedSchema} (h : b.finish = .ok s) : s.document = b.model := by
  rw [(finish_eq_ok_iff.1 h).2]
  rfl

/-- However a builder goes on after an event, the model in the end is checked for what the event attached. -/
theorem exists_offers_of_attaches {e : Event} (hps : b.providers = .standard) (h : b.Attaches e site target)
    (later : List Event) : ∃ declared, declared.Matches target ∧
      ∀ c ∈ target.constraints, ⟨site, declared, c⟩ ∈ ((b.apply e).run later).model.offers := by
  obtain ⟨held, hheld, hmatches⟩ := holds_of_attaches hps h
  have hretains := retains_run ((advances_apply hps e).standard hps) later
  obtain ⟨declared, hdeclared, hmatches'⟩ := declares_of_holds (hheld.mono hretains)
  have hboth := hmatches'.trans hmatches
  refine ⟨declared, hboth, fun c hc => Document.mem_offers_iff.2 ⟨hdeclared, ?_⟩⟩
  rw [← hboth.constraints_eq] at hc
  exact hc

theorem allReports_eq_offers (hps : b.providers = .standard) (hdefined : b.applyExtensions.registry.unresolved = []) :
    b.allReports = b.applyExtensions.diagnostics ++
      ((b.model.offers.flatMap fun x => b.model.registry.constraintReportsOn .standard x.site x.target x.constraint)
        ++ b.model.registry.inheritanceReports b.policy) := by
  rw [allReports_of_resolved hdefined, hps, ← b.model.constraintReports_eq]
  rfl

theorem finish_of_missing_field {x : Offer} {field : String} {value : Literal} {span : Span} {object : TypeId}
    (hps : b.providers = .standard) (hdefined : b.applyExtensions.registry.unresolved = [])
    (hx : x ∈ b.model.offers) (hconstant : x.constraint = .namedConstant field value span)
    (hobject : b.model.registry.UnwrapsTo x.target.type object)
    (hmissing : ∀ f ∈ b.model.registry.allFields object, f.name ≠ field) : ∃ ds, b.finish = .error ds := by
  obtain ⟨reason, hreason⟩ := Registry.reports_of_missing_field x.site value span hobject hmissing
  rw [← hconstant] at hreason
  have hmem : (Malformation.property reason).toDiagnostic b.model.registry x.constraint x.target ∈ b.allReports := by
    rw [allReports_eq_offers hps hdefined]
    refine List.mem_append_right _ (List.mem_append_left _ (List.mem_flatMap.2 ⟨x, hx, ?_⟩))
    rw [hreason]
    exact List.mem_singleton_self _
  cases h : b.finish with
  | error ds => exact ⟨ds, rfl⟩
  | ok s => exact absurd rfl (severity_ne_error_of_finish h _ hmem)

/-- The constraints that a schema is checked for when it is finished, the table of providers being the
standard one and every name being defined. They are those on the fields of the object types as extended,
on the parameters and on the contracts, and each is given to its validators, whose reports all stand
among those of the schema. Whatever an earlier event attached to one of these is among them. So a
constant for a field that the object type behind its target has not makes the schema fail. -/
theorem finish_offers (b : Builder) (hps : b.providers = .standard)
    (hdefined : b.applyExtensions.registry.unresolved = []) :
    (∀ s, b.finish = .ok s → s.document = b.model) ∧
    (∀ x, x ∈ b.model.offers ↔ b.model.Declares x.site x.target ∧ x.constraint ∈ x.target.constraints) ∧
    b.allReports = b.applyExtensions.diagnostics ++
      ((b.model.offers.flatMap fun x => b.model.registry.constraintReportsOn .standard x.site x.target x.constraint)
        ++ b.model.registry.inheritanceReports b.policy) ∧
    (∀ (earlier : Builder) (e : Event) (later : List Event) (site : ConstraintSite) (target : ConstraintTarget),
      earlier.providers = .standard → earlier.Attaches e site target → (earlier.apply e).run later = b →
      ∃ declared, declared.Matches target ∧ ∀ c ∈ target.constraints, ⟨site, declared, c⟩ ∈ b.model.offers) ∧
    (∀ x ∈ b.model.offers, ∀ field value span object, x.constraint = .namedConstant field value span →
      b.model.registry.UnwrapsTo x.target.type object →
      (∀ f ∈ b.model.registry.allFields object, f.name ≠ field) → ∃ ds, b.finish = .error ds) := by
  refine ⟨fun s => document_of_finish, fun x => Document.mem_offers_iff, allReports_eq_offers hps hdefined, ?_, ?_⟩
  · rintro earlier e later site target hearlier hattaches rfl
    exact exists_offers_of_attaches hearlier hattaches later
  · intro x hx field value span object hconstant hobject hmissing
    exact finish_of_missing_field hps hdefined hx hconstant hobject hmissing

/-- A parameter whose type has no field of the name that a constant is given for. -/
theorem finish_offers_missing_field :
    let amount : FieldDeclaration := { name := "amount", type := .primitive .int }
    let price : ParameterDeclaration := {
      name := some "price", type := .user ⟨0⟩
      clauses := [.constant (.fieldNamed "currency") (.text "GBP") .unknown] }
    let b := run {} [
      .type (.declare (.object { name := .ofParts "pay" "Money", fields := [amount] })),
      .declareService {
        name := .ofParts "pay" "Till"
        operations := [{ name := "pay", params := [price], returns := .user ⟨0⟩ }] }]
    b.providers = .standard ∧ b.applyExtensions.registry.unresolved = [] ∧ ∃ ds, b.finish = .error ds := by
  intro amount price b
  have hdefined : b.applyExtensions.registry.unresolved = [] := rfl
  obtain ⟨-, hoffers, -, -, hfails⟩ := finish_offers b rfl hdefined
  let pounds := Constraint.namedConstant "currency" (.text "GBP") .unknown
  let p := price.toParameter [pounds]
  let o : Operation := { name := "pay", params := [p], returns := .user ⟨0⟩ }
  have hoffer : ⟨.parameter o, .parameter p, pounds⟩ ∈ b.model.offers := by
    refine (hoffers _).2 ⟨.parameter (o := o) (p := p) (s := ⟨.ofParts "pay" "Till", [o], [], none, .unknown⟩) ?_ ?_ ?_, ?_⟩
    all_goals exact List.mem_singleton_self _
  refine ⟨rfl, hdefined, hfails _ hoffer "currency" (.text "GBP") .unknown ⟨0⟩ rfl ⟨.refl, _, rfl⟩ ?_⟩
  decide +kernel

/-- The validators are not offered the constraints on the fields of an annotation type. -/
theorem finish_unoffered_annotation_field :
    let amount : FieldDeclaration := { name := "amount", type := .primitive .int }
    let price : FieldDeclaration := {
      name := "price", type := .user ⟨0⟩
      clauses := [.constant (.fieldNamed "currency") (.text "GBP") .unknown] }
    let pounds := Constraint.namedConstant "currency" (.text "GBP") .unknown
    let b := run {} [
      .type (.declare (.object { name := .ofParts "pay" "Money", fields := [amount] })),
      .type (.declare (.annotationType { name := .ofParts "pay" "Priced", fields := [price] }))]
    b.Reachable ∧ b.applyExtensions.registry.unresolved = [] ∧
      (∃ x, b.model.registry.get? ⟨1⟩ = some x ∧
        x.body.definition? = some (.annotationType { fields := [price.toField [pounds]] })) ∧
      b.model.registry.UnwrapsTo (price.toField [pounds]).type ⟨0⟩ ∧
      (∀ f ∈ b.model.registry.allFields ⟨0⟩, f.name ≠ "currency") ∧ b.finish.isOk = true := by
  intro amount price pounds b
  refine ⟨⟨{}, _, rfl⟩, rfl, ⟨_, rfl, rfl⟩, ⟨.refl, _, rfl⟩, ?_, ?_⟩
  · decide +kernel
  · decide +kernel

end Builder

end SemanticSchema
