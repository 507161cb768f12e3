import SemanticSchema.Builder
import SemanticSchema.Proofs.Registry.Run

/-!
# What building constraints does

A clause names at most one type. The standard providers touch the registry only to resolve that
type, so clauses whose types are known leave it alone, and come to the same wherever the names and
the imports are the same.

* `Clause.typeName?`, `Clause.lookups` : the type that a clause names, and its look-up;
* `Clause.Refused`, `Clause.refused_iff` : the clauses that no standard provider builds;
* `Clause.constraint` : what any other clause becomes, given the meaning of names;
* `Registry.Knows` : resolving the type that a clause names records nothing;
* `Providers.standard_build_of_refused`, `Providers.standard_build_of_not_refused` : one clause;
* `Providers.buildAll_append`, `Providers.standard_buildAll_eq` : several clauses;
* `Registry.builtFields`, `Registry.fieldErrors`, `Builder.buildFields_eq` : the fields of a
  declaration, and the reports on them.
-/

set_option autoImplicit false

namespace SemanticSchema

/-! ## One clause -/

/-- The standard provider of a form. -/
def Provider.standardOf : ClauseShape → Provider
  | .comparison => .comparison
  | .constant => .constantValue
  | .derivedFrom => .derivedValue
  | .expression => .expression

namespace Clause

/-- The type that a clause names. -/
def typeName? : Clause → Option QualifiedName
  | .comparison (.typeNamed name) _ _ _ => some name
  | .constant (.typeNamed name) _ _ => some name
  | _ => none

/-- The clauses that no standard provider builds. -/
inductive Refused : Clause → Prop
  | bareThis {path : PropertyPath} {operator : Operator} {expected : Expected} {span : Span}
      (h : path.withoutThis = ⟨[]⟩) : Refused (.comparison (.thisPath path) operator expected span)
  | emptyDerivation {span : Span} : Refused (.derivedFrom ⟨[]⟩ span)
  | notBoolean {body : Expression} (h : body.returns ≠ .primitive .boolean) : Refused (.expression body)

theorem refused_iff {c : Clause} : c.Refused ↔ (Provider.standardOf c.shape).applies c = false := by
  cases c with
  | comparison property operator expected span =>
    cases property with
    | thisPath path =>
      show _ ↔ (!path.withoutThis.isEmpty) = false
      rw [Bool.not_eq_false', PropertyPath.isEmpty_iff]
      exact ⟨fun h => by cases h; assumption, .bareThis⟩
    | typeNamed name => exact ⟨nofun, nofun⟩
  | constant subject value span => exact ⟨nofun, nofun⟩
  | derivedFrom path span =>
    show _ ↔ (!path.isEmpty) = false
    rw [Bool.not_eq_false', PropertyPath.isEmpty_iff]
    constructor
    · rintro ⟨⟩
      rfl
    · rintro rfl
      exact .emptyDerivation
  | expression body =>
    show _ ↔ (body.returns == .primitive .boolean) = false
    rw [beq_eq_false_iff_ne]
    exact ⟨fun h => by cases h; assumption, .notBoolean⟩

instance : DecidablePred Refused := fun _ => decidable_of_iff _ refused_iff.symm

/-- What a clause that is not refused becomes, `meaning` giving the type that a name means. -/
def constraint (meaning : QualifiedName → TypeRef) : Clause → Constraint
  | comparison (.thisPath path) operator expected span =>
    .property (.byPath path.withoutThis) operator expected span
  | comparison (.typeNamed name) operator expected span =>
    .property (.byType (meaning name)) operator expected span
  | constant (.fieldNamed field) value span => .namedConstant field value span
  | constant (.typeNamed name) value span => .typedConstant (meaning name) value span
  | derivedFrom path span => .derivedFrom path span
  | expression body => .expression body body.span

/-- What building a clause does to the registry: it looks up the name, if there is one. -/
def lookups (c : Clause) : List Registry.Event := c.typeName?.toList.map (.resolve c.span)

theorem constraint_congr {f g : QualifiedName → TypeRef} {c : Clause}
    (h : ∀ name, c.typeName? = some name → f name = g name) : c.constraint f = c.constraint g := by
  cases c with
  | comparison property operator expected span =>
    cases property with
    | thisPath path => rfl
    | typeNamed name => simp only [constraint, h name rfl]
  | constant subject value span =>
    cases subject with
    | fieldNamed field => rfl
    | typeNamed name => simp only [constraint, h name rfl]
  | derivedFrom path span => rfl
  | expression body => rfl

theorem Refused.lookups_eq_nil {c : Clause} (h : c.Refused) : c.lookups = [] := by
  cases h <;> rfl

end Clause

/-- Whether resolving the type that a clause names records nothing. -/
def Registry.Knows (r : Registry) (c : Clause) : Prop :=
  ∀ name, c.typeName? = some name → (r.resolve c.span name).2 = r

theorem Registry.Knows.congr {r r' : Registry} {c : Clause} (h : r.Knows c) (hnames : r'.names = r.names)
    (himports : r'.imports = r.imports) : r'.Knows c := by
  intro name hname
  rw [Registry.resolve_congr hnames himports (h name hname)]

theorem Registry.Knows.run_lookups {r : Registry} {c : Clause} (h : r.Knows c) : r.run c.lookups = r := by
  unfold Clause.lookups
  cases hname : c.typeName? with
  | none => rfl
  | some name => exact h name hname

namespace Providers

variable {c : Clause}

theorem select?_standard (c : Clause) : Providers.standard.select? c =
    if (Provider.standardOf c.shape).applies c then some (.standardOf c.shape) else none := by
  have hshape : Providers.standard.ofShape c.shape = [.standardOf c.shape] := by
    cases c.shape <;> rfl
  rw [select?, hshape, List.find?_singleton]

theorem standard_build_of_refused (h : c.Refused) (r : Registry) :
    Providers.standard.build r c = (.error [c.providerNotFound], r) := by
  unfold build
  rw [select?_standard, Clause.refused_iff.1 h]
  rfl

theorem standard_build_of_not_refused (h : ¬ c.Refused) (r : Registry) :
    Providers.standard.build r c =
      (.ok (c.constraint fun name => (r.resolve c.span name).1), r.run c.lookups) := by
  unfold build
  rw [select?_standard, if_pos (by rwa [Clause.refused_iff, Bool.not_eq_false] at h)]
  cases c with
  | comparison property operator expected span => cases property <;> rfl
  | constant subject value span => cases subject <;> rfl
  | derivedFrom path span => rfl
  | expression body => rfl

theorem standard_build_snd (r : Registry) (c : Clause) : (Providers.standard.build r c).2 = r.run c.lookups := by
  by_cases h : c.Refused
  · rw [standard_build_of_refused h, h.lookups_eq_nil]
    rfl
  · rw [standard_build_of_not_refused h]

/-- The constraint of a clause depends on the registry only through the type that the clause names. -/
theorem standard_build_fst {r r' : Registry}
    (h : ∀ name, c.typeName? = some name → (r'.resolve c.span name).1 = (r.resolve c.span name).1) :
    (Providers.standard.build r' c).1 = (Providers.standard.build r c).1 := by
  by_cases hrefused : c.Refused
  · rw [standard_build_of_refused hrefused, standard_build_of_refused hrefused]
  · rw [standard_build_of_not_refused hrefused, standard_build_of_not_refused hrefused]
    exact congrArg Except.ok (Clause.constraint_congr h)

/-! ## Several clauses -/

variable {r r' : Registry}

/-- The clauses in front are built first, and the others with the registry that these leave. -/
theorem buildAll_append (ps : Providers) (r : Registry) (front back : List Clause) :
    ps.buildAll r (front ++ back) =
      let before := ps.buildAll r front
      let after := ps.buildAll before.registry back
      ⟨before.constraints ++ after.constraints, before.errors ++ after.errors, after.registry⟩ := by
  induction front generalizing r with
  | nil => rfl
  | cons c rest ih =>
    cases hbuilt : ps.build r c with
    | mk built r' => cases built <;> simp only [List.cons_append, buildAll, hbuilt, ih, List.append_assoc]

theorem standard_build_eq {c : Clause} (h : r.Knows c) (hnames : r'.names = r.names)
    (himports : r'.imports = r.imports) :
    Providers.standard.build r' c = ((Providers.standard.build r c).1, r') := by
  refine Prod.ext (standard_build_fst fun name hname => ?_) ?_
  · rw [Registry.resolve_congr hnames himports (h name hname)]
  · have hknows := h.congr hnames himports
    exact (standard_build_snd r' c).trans hknows.run_lookups

/-- Clauses whose types are known come to the same wherever the names and the imports are the
same, and leave the registry alone. -/
theorem standard_buildAll_eq {clauses : List Clause} (h : ∀ c ∈ clauses, r.Knows c)
    (hnames : r'.names = r.names) (himports : r'.imports = r.imports) :
    Providers.standard.buildAll r' clauses =
      { Providers.standard.buildAll r clauses with registry := r' } := by
  induction clauses with
  | nil => rfl
  | cons c rest ih =>
    obtain ⟨hc, hrest⟩ := List.forall_mem_cons.1 h
    have hself : Providers.standard.build r c = ((Providers.standard.build r c).1, r) :=
      standard_build_eq hc rfl rfl
    unfold buildAll
    rw [standard_build_eq hc hnames himports, hself]
    cases (Providers.standard.build r c).1 <;> simp only [ih hrest]

end Providers

/-! ## Fields -/

namespace Registry

/-- The fields of a declaration with their constraints. -/
def builtFields (r : Registry) (ds : List FieldDeclaration) : List Field :=
  ds.map fun d => d.toField (Providers.standard.buildAll r d.clauses).constraints

/-- The reports on the clauses of fields. -/
def fieldErrors (r : Registry) (ds : List FieldDeclaration) : List Diagnostic :=
  ds.flatMap fun d => (Providers.standard.buildAll r d.clauses).errors

variable {r r' : Registry} {ds : List FieldDeclaration}

theorem builtFields_congr (h : ∀ d ∈ ds, ∀ c ∈ d.clauses, r.Knows c) (hnames : r'.names = r.names)
    (himports : r'.imports = r.imports) : r'.builtFields ds = r.builtFields ds :=
  List.map_congr_left fun d hd => by rw [Providers.standard_buildAll_eq (h d hd) hnames himports]

theorem fieldErrors_congr (h : ∀ d ∈ ds, ∀ c ∈ d.clauses, r.Knows c) (hnames : r'.names = r.names)
    (himports : r'.imports = r.imports) : r'.fieldErrors ds = r.fieldErrors ds :=
  List.flatMap_congr fun d hd => by rw [Providers.standard_buildAll_eq (h d hd) hnames himports]

end Registry

theorem Builder.buildFields_eq {b : Builder} {ds : List FieldDeclaration} (hps : b.providers = .standard)
    (h : ∀ d ∈ ds, ∀ c ∈ d.clauses, b.registry.Knows c) :
    b.buildFields ds = (b.registry.builtFields ds,
      { b with diagnostics := b.diagnostics ++ b.registry.fieldErrors ds }) := by
  induction ds generalizing b with
  | nil => simp [buildFields, Registry.builtFields, Registry.fieldErrors]
  | cons d ds ih =>
    obtain ⟨hd, hds⟩ := List.forall_mem_cons.1 h
    have hbuilt : (Providers.standard.buildAll b.registry d.clauses).registry = b.registry :=
      congrArg BuiltConstraints.registry (Providers.standard_buildAll_eq hd rfl rfl)
    have hclauses : b.buildClauses d.clauses = ((Providers.standard.buildAll b.registry d.clauses).constraints,
        { b with diagnostics := b.diagnostics ++ (Providers.standard.buildAll b.registry d.clauses).errors }) := by
      unfold buildClauses
      simp only [hps, hbuilt]
    have hrest := @ih (b.buildClauses d.clauses).2 hps (by rw [hclauses]; exact hds)
    unfold buildFields
    rw [hclauses] at hrest ⊢
    simp only at hrest ⊢
    rw [hrest]
    simp [Registry.builtFields, Registry.fieldErrors]

end SemanticSchema
