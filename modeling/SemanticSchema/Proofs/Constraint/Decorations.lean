import SemanticSchema.Proofs.Registry.Bare
import SemanticSchema.Proofs.Registry.Run

/-!
# Decorations are not checked

An extension that refines no field decorates: it adds annotations, synonyms and doc texts. No check reads
these, so the reports on a registry stay as they were.

* `Registry.fieldOnPath_bare`, `Registry.fieldOfType_bare` : a property is found in the bare registry as in
  the registry itself, or not found for the same reason;
* `Registry.constraintReports_bare` : the standard validators report the same;
* `TypeExtension.Decorates`, `Registry.bare_of_extend` : an extension that decorates leaves the bare
  registry as it was;
* `Registry.reports_of_decorates` : so it leaves the reports on constraints and on the inheritance.
-/

set_option autoImplicit false

namespace SemanticSchema

namespace Registry

variable (r : Registry) (object : TypeId)

/-! ## Properties -/

theorem fieldNamed_bare (name : String) :
    r.bare.fieldNamed object name = (r.fieldNamed object name).map Field.bare := by
  simp only [fieldNamed, field?_bare, nameOf_bare]
  cases r.field? object name with
  | none => rfl
  | some f => rfl

theorem objectBehind_bare (f : Field) : r.bare.objectBehind f.bare = r.objectBehind f := by
  have htype : f.bare.type = f.type := rfl
  simp only [objectBehind, htype, unwrapObject?_bare, nameOf_bare]

theorem fieldAlong_bare (part : String) (rest : List String) :
    r.bare.fieldAlong object part rest = (r.fieldAlong object part rest).map Field.bare := by
  induction rest generalizing object part with
  | nil => exact fieldNamed_bare r object part
  | cons next rest ih =>
    rw [fieldAlong, fieldAlong, fieldNamed_bare]
    cases r.fieldNamed object part with
    | error e => rfl
    | ok f =>
      change (r.bare.objectBehind f.bare >>= fun inner => r.bare.fieldAlong inner next rest) =
        (r.objectBehind f >>= fun inner => r.fieldAlong inner next rest).map Field.bare
      rw [objectBehind_bare]
      cases r.objectBehind f with
      | error e => rfl
      | ok inner => exact ih inner next

theorem fieldOnPath_bare (path : PropertyPath) :
    r.bare.fieldOnPath object path = (r.fieldOnPath object path).map Field.bare := by
  unfold fieldOnPath
  cases path.parts with
  | nil => simp only [nameOf_bare]; rfl
  | cons part rest => exact fieldAlong_bare r object part rest

theorem fieldsAssignableTo_bare (type : TypeRef) :
    r.bare.fieldsAssignableTo object type = (r.fieldsAssignableTo object type).map Field.bare := by
  rw [fieldsAssignableTo, allFields_bare, fieldsAssignableTo, List.filter_map]
  simp only [isAssignable_bare]
  rfl

/-- Which of several fields a type means is decided by their types. -/
theorem fieldOfType_bare (type : TypeRef) :
    r.bare.fieldOfType object type = (r.fieldOfType object type).map Field.bare := by
  have hexact : ∀ fs : List Field, (fs.map Field.bare).filter (·.type == type) =
      (fs.filter (·.type == type)).map Field.bare := fun fs => List.filter_map ..
  have hnames : ∀ fs : List Field, (fs.map Field.bare).map (·.name) = fs.map (·.name) :=
    fun fs => List.map_map ..
  unfold fieldOfType
  rw [fieldsAssignableTo_bare]
  match r.fieldsAssignableTo object type with
  | [] => simp only [nameOf_bare]; rfl
  | [f] => rfl
  | f :: g :: rest =>
    -- Among several, those of exactly the type are looked for.
    simp only [List.map_cons, nameOf_bare]
    rw [← List.map_cons, ← List.map_cons, hexact, hnames]
    cases (f :: g :: rest).filter (·.type == type) with
    | nil => rfl
    | cons only more =>
      cases more with
      | nil => rfl
      | cons other more => rfl

theorem resolve_bare (subject : PropertyRef) :
    subject.resolve r.bare object = (subject.resolve r object).map Field.bare := by
  cases subject with
  | byPath path => exact fieldOnPath_bare r object path.withoutThis
  | byType type => exact fieldOfType_bare r object type

/-! ## Faults -/

variable (site : ConstraintSite) (target : TypeRef) (subject : PropertyRef)

theorem propertyFaults_bare (otherwise : Malformation) :
    r.bare.propertyFaults target subject otherwise = r.propertyFaults target subject otherwise := by
  unfold propertyFaults
  rw [unwrapObject?_bare]
  cases r.unwrapObject? target with
  | none => rfl
  | some object =>
    simp only [resolve_bare]
    cases subject.resolve r object with
    | error e => rfl
    | ok f => rfl

theorem parameterPathError?_bare (o : Operation) (path : PropertyPath) :
    r.bare.parameterPathError? o path = r.parameterPathError? o path := by
  unfold parameterPathError?
  cases path.parts with
  | nil => rfl
  | cons head rest =>
    simp only [unwrapObject?_bare, nameOf_bare, fieldOnPath_bare]
    cases o.parameter? head with
    | none => rfl
    | some p =>
      simp only
      cases r.unwrapObject? p.type with
      | none => rfl
      | some object =>
        simp only
        cases r.fieldOnPath object ⟨rest⟩ with
        | error e => rfl
        | ok f => rfl

theorem expectedFaults_bare (expected : Expected) :
    r.bare.expectedFaults site expected = r.expectedFaults site expected := by
  simp only [expectedFaults, parameterPathError?_bare]

theorem derivationFaults_bare (path : PropertyPath) :
    r.bare.derivationFaults site path = r.derivationFaults site path := by
  simp only [derivationFaults, parameterPathError?_bare]

theorem comparisonFaults_bare (expected : Expected) :
    r.bare.comparisonFaults site target subject expected = r.comparisonFaults site target subject expected := by
  simp only [comparisonFaults, isExternal_bare, spell_bare, propertyFaults_bare, expectedFaults_bare]

theorem constantFaults_bare : r.bare.constantFaults target subject = r.constantFaults target subject := by
  simp only [constantFaults, isExternal_bare, propertyFaults_bare]

end Registry

/-! ## Reports -/

/-- A target, a field being taken without its annotations. -/
def ConstraintTarget.bare : ConstraintTarget → ConstraintTarget
  | .field f => .field f.bare
  | target => target

namespace ConstraintTarget

@[simp] theorem type_bare (target : ConstraintTarget) : target.bare.type = target.type := by
  cases target <;> rfl

@[simp] theorem constraints_bare (target : ConstraintTarget) :
    target.bare.constraints = target.constraints := by
  cases target <;> rfl

@[simp] theorem describe_bare (target : ConstraintTarget) (spell : TypeRef → String) :
    target.bare.describe spell = target.describe spell := by
  cases target <;> rfl

end ConstraintTarget

theorem Providers.exists_of_mem_validators {ps : Providers} {v : Validator} (h : v ∈ ps.validators) :
    ∃ p ∈ ps.entries, p.validator = some v := by
  obtain ⟨p, hp, hv⟩ := List.mem_filterMap.1 h
  obtain ⟨shape, -, hp⟩ := List.mem_flatMap.1 hp
  exact ⟨p, List.mem_of_mem_filter hp, hv⟩

namespace Registry

variable {ps : Providers}

/-- A standard validator reads nothing of a target but its type, and nothing that is left out of the bare
registry. -/
theorem faults_bare (r : Registry) {p : Provider} {v : Validator} (hp : p ∈ Providers.standard.entries)
    (hv : p.validator = some v) (site : ConstraintSite) (target : ConstraintTarget) (c : Constraint) :
    v.faults r.bare site target.bare c = v.faults r site target c := by
  simp only [Providers.standard, List.mem_cons, List.not_mem_nil, or_false] at hp
  rcases hp with rfl | rfl | rfl | rfl
  · cases hv
    cases c <;> simp only [ConstraintTarget.type_bare, comparisonFaults_bare]
  · cases hv
    cases c <;> simp only [derivationFaults_bare]
  · cases hv
    cases c <;> simp only [ConstraintTarget.type_bare, constantFaults_bare]
  · cases hv

theorem toDiagnostic_bare (r : Registry) (c : Constraint) (target : ConstraintTarget) :
    Malformation.toDiagnostic r.bare c target.bare = Malformation.toDiagnostic r c target := by
  funext reason
  simp only [Malformation.toDiagnostic, spell_bare, ConstraintTarget.describe_bare, ConstraintTarget.type_bare]

theorem constraintReportsOn_bare (hps : ps.entries ⊆ Providers.standard.entries) (r : Registry)
    (site : ConstraintSite) (target : ConstraintTarget) (c : Constraint) :
    r.bare.constraintReportsOn ps site target.bare c = r.constraintReportsOn ps site target c := by
  refine List.flatMap_congr fun v hv => ?_
  obtain ⟨p, hp, hvalidator⟩ := Providers.exists_of_mem_validators (List.mem_of_mem_filter hv)
  rw [faults_bare r (hps hp) hvalidator, toDiagnostic_bare]

theorem targetReports_bare (hps : ps.entries ⊆ Providers.standard.entries) (r : Registry)
    (site : ConstraintSite) (target : ConstraintTarget) :
    r.bare.targetReports ps site target.bare = r.targetReports ps site target := by
  rw [targetReports, ConstraintTarget.constraints_bare, targetReports]
  exact List.flatMap_congr fun c _ => constraintReportsOn_bare hps r site target c

theorem fieldReports_bare (hps : ps.entries ⊆ Providers.standard.entries) (r : Registry) :
    r.bare.fieldReports ps = r.fieldReports ps := by
  rw [fieldReports, definedSlots_bare, fieldReports, List.flatMap_map]
  refine List.flatMap_congr fun slot _ => ?_
  rw [ownFields_bare, List.flatMap_map]
  exact List.flatMap_congr fun f _ => targetReports_bare hps r (.field slot.1) (.field f)

theorem operationReports_bare (hps : ps.entries ⊆ Providers.standard.entries) (r : Registry)
    (o : Operation) : r.bare.operationReports ps o = r.operationReports ps o := by
  have hcontract : ∀ c, r.bare.targetReports ps (.returnContract o) (.contract c) =
      r.targetReports ps (.returnContract o) (.contract c) :=
    fun c => targetReports_bare hps r (.returnContract o) (.contract c)
  have hparameter : ∀ p, r.bare.targetReports ps (.parameter o) (.parameter p) =
      r.targetReports ps (.parameter o) (.parameter p) :=
    fun p => targetReports_bare hps r (.parameter o) (.parameter p)
  simp only [operationReports, hcontract, hparameter]

/-- The standard validators report the same on a registry and on what is left of it without decorations. -/
theorem constraintReports_bare (hps : ps.entries ⊆ Providers.standard.entries) (r : Registry)
    (services : List Service) : r.bare.constraintReports ps services = r.constraintReports ps services := by
  have hoperation : r.bare.operationReports ps = r.operationReports ps := funext (operationReports_bare hps r)
  rw [constraintReports, fieldReports_bare hps, hoperation, constraintReports]

end Registry

/-! ## Extensions that decorate -/

/-- Whether an extension refines no field. -/
def TypeExtension.Decorates : TypeExtension → Prop
  | .object e => ∀ entry ∈ e.fields, entry.refinement = none
  | .enum _ => True
  | .typeAlias _ => True

theorem ObjectType.bare_addExtension {e : ObjectExtension} (t : ObjectType)
    (he : ∀ entry ∈ e.fields, entry.refinement = none) : ObjectType.bare (t.addExtension e) = t.bare := by
  have hnone : e.fields.filter (·.refinement.isSome) = [] :=
    List.filter_eq_nil_iff.2 fun entry hentry => by simp [he entry hentry]
  simp [bare, refinements, Declared.addExtension, hnone]

theorem TypeBody.bare_of_extend {body body' : TypeBody} {e : TypeExtension} (he : e.Decorates)
    (h : body.extend e = .ok body') : body'.bare = body.bare := by
  obtain ⟨t, x, t', rfl, rfl, ht, rfl⟩ | ⟨t, x, t', rfl, rfl, ht, rfl⟩ | ⟨t, x, rfl, rfl, rfl⟩ :=
    extend_ok_cases h
  · rw [ObjectType.addExtension_of_extend ht]
    exact congrArg TypeBody.object (t.bare_addExtension he)
  · rw [EnumType.addExtension_of_extend ht]
    rfl
  · rfl

namespace Registry

variable {r r' : Registry} {id : TypeId} {name : QualifiedName} {e : TypeExtension} {ps : Providers}

theorem bare_setBody {x : Record} {body : TypeBody} (hx : r.get? id = some x) (h : body.bare = x.body.bare) :
    (r.setBody id body).bare = r.bare := by
  have hrecords : (r.setBody id body).bare.records = r.bare.records := by
    refine List.ext_getElem? fun i => ?_
    show (r.setBody id body).bare.get? ⟨i⟩ = r.bare.get? ⟨i⟩
    rw [get?_bare, get?_bare, get?_setBody]
    split
    · next hid =>
      rw [hid, hx]
      exact congrArg some (congrArg (fun b => ({ x with body := b } : Record)) h)
    · rfl
  exact congrArg (fun xs => ({ r with records := xs } : Registry)) hrecords

theorem bare_of_extend (hname : r.contains name) (he : e.Decorates) (h : r.extend name e = (none, r')) :
    r'.bare = r.bare := by
  obtain ⟨id, x, body, hx, hextend, rfl⟩ := extend_accepted h
  -- The name has a record, so it is not resolved anew.
  have hslot : (r.extensionSlot name e).2 = r := by
    rw [extensionSlot_snd, if_neg]
    rintro ⟨hnone, -⟩
    rw [contains, hnone] at hname
    cases hname
  rw [hslot] at hx ⊢
  exact bare_setBody hx (TypeBody.bare_of_extend he hextend)

/-- An accepted extension of a recorded name that refines no field leaves every report of the standard
validators as it was, and every report on the inheritance. -/
theorem reports_of_decorates (hname : r.contains name) (he : e.Decorates) (h : r.extend name e = (none, r'))
    (hps : ps.entries ⊆ Providers.standard.entries) :
    (∀ services, r'.constraintReports ps services = r.constraintReports ps services) ∧
      ∀ policy, r'.inheritanceReports policy = r.inheritanceReports policy := by
  have hbare : r'.bare = r.bare := bare_of_extend hname he h
  constructor
  · intro services
    rw [← constraintReports_bare hps r', hbare, constraintReports_bare hps]
  · intro policy
    rw [← inheritanceReports_bare r', hbare, inheritanceReports_bare]

/-- A field must have a constant in a property that its type lacks. The type is extended with annotations
for a field of that name, and the report stays. -/
theorem reports_of_decorates_missing_field :
    let colour := QualifiedName.ofParts "paint" "Colour"
    let base : Field := {
      name := "base", type := .user ⟨0⟩, constraints := [.namedConstant "hue" (.int 1) .unknown] }
    let r := ({} : Registry).run [.register colour (.object { fields := [base] })]
    let dark : AnnotationUse := { name := .ofParts "paint" "Dark" }
    let e := TypeExtension.object {
      fields := [{ name := "hue", annotations := [dark] }, { name := "base", annotations := [dark] }]
      doc := some "What a wall is painted in." }
    ∃ r', r.contains colour ∧ e.Decorates ∧ r.extend colour e = (none, r') ∧
      r'.constraintReports .standard [] = r.constraintReports .standard [] ∧
      (r.constraintReports .standard []).length = 1 ∧ r'.inheritanceReports {} = r.inheritanceReports {} := by
  intro colour base r dark e
  have hname : r.contains colour := by decide
  have he : e.Decorates := by
    intro entry hentry
    rcases List.mem_pair.1 hentry with rfl | rfl <;> rfl
  have haccepted : r.extend colour e = (none, (r.extend colour e).2) := rfl
  have hreports := reports_of_decorates hname he haccepted (List.Subset.refl Providers.standard.entries)
  exact ⟨_, hname, he, haccepted, hreports.1 [], by decide +kernel, hreports.2 {}⟩

end Registry

end SemanticSchema
