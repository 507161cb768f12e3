import SemanticSchema.Proofs.Builder.Clauses
import SemanticSchema.Proofs.Registry.Known

/-!
# What declaring a type does

The four kinds of type are declared in the same way: the fields are built, if there are any, and the
definition is installed under its name.

* `TypeDeclaration`, `Builder.declareType` : a declaration of any kind;
* `TypeEvent`, `Builder.applyType`, `Builder.runTypes` : declarations and extensions of types;
* `Builder.declareType_eq` : when the types that its clauses name are known, a declaration defines its
  name in the registry and adds to the reports, and that is all it does;
* `Builder.Foresees` : every name that some events declare has a record, each is declared once, and
  every type that their clauses name is known;
* `Builder.runTypes_eq` : what such events come to can be read off the registry before them.
-/

set_option autoImplicit false

namespace SemanticSchema

/-- A type of any kind as declared. -/
inductive TypeDeclaration where
  | object (d : ObjectDeclaration)
  | enum (d : EnumDeclaration)
  | typeAlias (d : AliasDeclaration)
  | annotationType (d : AnnotationTypeDeclaration)

namespace TypeDeclaration

/-- The name that is declared. -/
def name : TypeDeclaration → QualifiedName
  | object d => d.name
  | enum d => d.name
  | typeAlias d => d.name
  | annotationType d => d.name

/-- The fields as declared. -/
def fields : TypeDeclaration → List FieldDeclaration
  | object d => d.fields
  | annotationType d => d.fields
  | _ => []

/-- The definition, with its fields built. -/
def definition (fields : List Field) : TypeDeclaration → TypeDefinition
  | object d => .object (.ofParts fields d.annotations d.modifiers d.inherits d.doc d.span)
  | enum d => .enum d.toDefinition
  | typeAlias d => .typeAlias ⟨d.target, d.annotations, d.doc, d.span⟩
  | annotationType d => .annotationType ⟨fields, d.annotations, d.doc, d.span⟩

/-- The definition that the declaration comes to in a registry. -/
def definitionIn (d : TypeDeclaration) (r : Registry) : TypeDefinition :=
  d.definition (r.builtFields d.fields)

/-- The reports on the declaration: on its clauses, then on its name. -/
def reportsIn (d : TypeDeclaration) (r : Registry) : List Diagnostic :=
  r.fieldErrors d.fields ++ r.refusals d.name (d.definitionIn r)

end TypeDeclaration

/-- What comes while types are declared. -/
inductive TypeEvent where
  | declare (d : TypeDeclaration)
  | extend (name : QualifiedName) (e : TypeExtension)

namespace TypeEvent

/-- The name that is declared. -/
def declared? : TypeEvent → Option QualifiedName
  | declare d => some d.name
  | extend _ _ => none

/-- The extension that is to wait. -/
def extension? : TypeEvent → Option (QualifiedName × TypeExtension)
  | declare _ => none
  | extend name e => some (name, e)

/-- The clauses of the fields. -/
def clauses : TypeEvent → List Clause
  | declare d => d.fields.flatMap (·.clauses)
  | extend _ _ => []

theorem forall_field_clauses {d : TypeDeclaration} {P : Clause → Prop} (h : ∀ c ∈ (declare d).clauses, P c) :
    ∀ f ∈ d.fields, ∀ c ∈ f.clauses, P c :=
  fun f hf c hc => h c (List.mem_flatMap.2 ⟨f, hf, hc⟩)

/-- The definition that is to be registered. -/
def registration? (r : Registry) : TypeEvent → Option (QualifiedName × TypeDefinition)
  | declare d => some (d.name, d.definitionIn r)
  | extend _ _ => none

/-- The reports on the event. -/
def reportsIn (r : Registry) : TypeEvent → List Diagnostic
  | declare d => d.reportsIn r
  | extend _ _ => []

end TypeEvent

namespace Builder

/-- Declares a type of any kind. -/
def declareType (b : Builder) : TypeDeclaration → Option TypeId × Builder
  | .object d => b.declareObject d
  | .enum d => b.declareEnum d
  | .typeAlias d => b.declareAlias d
  | .annotationType d => b.declareAnnotationType d

/-- The builder after an event. -/
def applyType (b : Builder) : TypeEvent → Builder
  | .declare d => (b.declareType d).2
  | .extend name e => b.extendType name e

/-- The builder after some events. -/
def runTypes (b : Builder) (events : List TypeEvent) : Builder := events.foldl applyType b

variable {b : Builder}

theorem install_snd (b : Builder) (name : QualifiedName) (d : TypeDefinition) :
    (b.install name d).2 =
      { b with
        registry := b.registry.apply (.register name d)
        diagnostics := b.diagnostics ++ b.registry.refusals name d } := by
  unfold install Registry.refusals
  simp only [Registry.apply]
  cases b.registry.register name d with
  | ok result => simp
  | error e => rfl

theorem declareType_eq_install (b : Builder) (d : TypeDeclaration) :
    b.declareType d = (b.buildFields d.fields).2.install d.name (d.definition (b.buildFields d.fields).1) := by
  cases d <;> rfl

/-- A declaration whose types are known defines its name, and adds to the reports. -/
theorem declareType_eq {d : TypeDeclaration} (hps : b.providers = .standard)
    (hknown : ∀ c ∈ (TypeEvent.declare d).clauses, b.registry.Knows c) :
    (b.declareType d).2 =
      { b with
        registry := b.registry.apply (.register d.name (d.definitionIn b.registry))
        diagnostics := b.diagnostics ++ d.reportsIn b.registry } := by
  rw [declareType_eq_install, buildFields_eq hps (TypeEvent.forall_field_clauses hknown), install_snd]
  simp only [List.append_assoc]
  rfl

/-! ## Several events -/

/-- Every name that the events declare has a record, each is declared once, and every type that
their clauses name is known. -/
structure Foresees (b : Builder) (events : List TypeEvent) : Prop where
  providers : b.providers = .standard
  distinct : (events.filterMap TypeEvent.declared?).Nodup
  recorded : ∀ name ∈ events.filterMap TypeEvent.declared?, b.registry.contains name
  known : ∀ e ∈ events, ∀ c ∈ e.clauses, b.registry.Knows c

namespace Foresees

variable {e : TypeEvent} {es : List TypeEvent}

theorem declare {d : TypeDeclaration} (h : b.Foresees (.declare d :: es)) :
    (∀ c ∈ (TypeEvent.declare d).clauses, b.registry.Knows c) ∧ b.registry.contains d.name ∧
      d.name ∉ es.filterMap TypeEvent.declared? := by
  have hcons : (TypeEvent.declare d :: es).filterMap TypeEvent.declared? =
      d.name :: es.filterMap TypeEvent.declared? := rfl
  have hdistinct := h.distinct
  rw [hcons, List.nodup_cons] at hdistinct
  refine ⟨h.known _ List.mem_cons_self, h.recorded _ ?_, hdistinct.1⟩
  rw [hcons]
  exact List.mem_cons_self

theorem applyType_names (h : b.Foresees (e :: es)) :
    (b.applyType e).registry.names = b.registry.names ∧
      (b.applyType e).registry.imports = b.registry.imports := by
  cases e with
  | declare d =>
    obtain ⟨hknown, hrecorded, -⟩ := h.declare
    rw [applyType, declareType_eq h.providers hknown]
    exact ⟨Registry.names_apply_register _ hrecorded, Registry.imports_apply_register _ hrecorded⟩
  | extend name x => exact ⟨rfl, rfl⟩

theorem tail (h : b.Foresees (e :: es)) : (b.applyType e).Foresees es := by
  obtain ⟨hnames, himports⟩ := h.applyType_names
  have hsub : (es.filterMap TypeEvent.declared?).Sublist ((e :: es).filterMap TypeEvent.declared?) :=
    (List.sublist_cons_self e es).filterMap _
  refine ⟨?_, h.distinct.sublist hsub, fun name hname => ?_, fun x hx c hc => ?_⟩
  · cases e with
    | declare d => rw [applyType, declareType_eq h.providers h.declare.1]; exact h.providers
    | extend name x => exact h.providers
  · rw [Registry.contains, Registry.idOf?_congr hnames]
    exact h.recorded name (hsub.subset hname)
  · exact (h.known x (List.mem_cons_of_mem e hx) c hc).congr hnames himports

theorem perm {es' : List TypeEvent} (h : b.Foresees es) (hperm : es'.Perm es) : b.Foresees es' where
  providers := h.providers
  distinct := (hperm.filterMap _).nodup_iff.2 h.distinct
  recorded name hname := h.recorded name ((hperm.filterMap _).mem_iff.1 hname)
  known e he := h.known e (hperm.mem_iff.1 he)

theorem definitionIn_applyType (h : b.Foresees (e :: es)) {d : TypeDeclaration} (hd : .declare d ∈ es) :
    d.definitionIn (b.applyType e).registry = d.definitionIn b.registry := by
  obtain ⟨hnames, himports⟩ := h.applyType_names
  have hknown := TypeEvent.forall_field_clauses (h.known _ (List.mem_cons_of_mem e hd))
  unfold TypeDeclaration.definitionIn
  rw [Registry.builtFields_congr hknown hnames himports]

/-- What a later declaration is told does not depend on the events before it. -/
theorem reportsIn_applyType (h : b.Foresees (e :: es)) {d : TypeDeclaration} (hd : .declare d ∈ es) :
    d.reportsIn (b.applyType e).registry = d.reportsIn b.registry := by
  obtain ⟨hnames, himports⟩ := h.applyType_names
  have hknown := TypeEvent.forall_field_clauses (h.known _ (List.mem_cons_of_mem e hd))
  have hrefusals : (b.applyType e).registry.refusals d.name (d.definitionIn b.registry) =
      b.registry.refusals d.name (d.definitionIn b.registry) := by
    cases e with
    | extend name x => rfl
    | declare first =>
      obtain ⟨hfirst, hrecorded, hnew⟩ := h.declare
      have hmem : d.name ∈ es.filterMap TypeEvent.declared? := List.mem_filterMap.2 ⟨_, hd, rfl⟩
      have hne : first.name ≠ d.name := fun heq => hnew (heq ▸ hmem)
      rw [applyType, declareType_eq h.providers hfirst]
      refine Registry.refusals_apply_register _ _ hne hrecorded (h.recorded _ ?_)
      exact List.mem_filterMap.2 ⟨_, List.mem_cons_of_mem _ hd, rfl⟩
  unfold TypeDeclaration.reportsIn
  rw [h.definitionIn_applyType hd, hrefusals, Registry.fieldErrors_congr hknown hnames himports]

end Foresees

/-- Events that are foreseen define their names as the registry before them has it, wait, and are
reported on, each for itself. -/
theorem runTypes_eq {events : List TypeEvent} (h : b.Foresees events) :
    b.runTypes events =
      { b with
        registry := b.registry.registerAll (events.filterMap (TypeEvent.registration? b.registry))
        pending := b.pending ++ events.filterMap TypeEvent.extension?
        diagnostics := b.diagnostics ++ events.flatMap (TypeEvent.reportsIn b.registry) } := by
  induction events generalizing b with
  | nil => simp [runTypes, Registry.registerAll, Registry.run]
  | cons e es ih =>
    -- What the later events come to is the same before and after the first one.
    have hregistrations : es.filterMap (TypeEvent.registration? (b.applyType e).registry) =
        es.filterMap (TypeEvent.registration? b.registry) := by
      refine List.filterMap_congr fun x hx => ?_
      cases x with
      | declare d => simp only [TypeEvent.registration?, h.definitionIn_applyType hx]
      | extend name x => rfl
    have hreports : es.flatMap (TypeEvent.reportsIn (b.applyType e).registry) =
        es.flatMap (TypeEvent.reportsIn b.registry) := by
      refine List.flatMap_congr fun x hx => ?_
      cases x with
      | declare d => exact h.reportsIn_applyType hx
      | extend name x => rfl
    show (b.applyType e).runTypes es = _
    rw [ih h.tail, hregistrations, hreports]
    cases e with
    | declare d =>
      rw [applyType, declareType_eq h.providers h.declare.1]
      simp only [List.append_assoc]
      rfl
    | extend name x =>
      simp only [applyType, extendType, List.append_assoc]
      rfl

end Builder

end SemanticSchema
