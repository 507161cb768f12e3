import SemanticSchema.Proofs.Builder.Declare

/-!
# Runs of a builder

What a reader of schema source does to a builder, in any order: it resolves names, imports them,
declares types and services, extends types, reports, and writes the registry.

* `Builder.Event`, `Builder.apply`, `Builder.run` : the operations, one of them, a list of them;
* `Builder.Advances` : the settings stay, and a run of the registry leads from the old to the new;
* `Builder.advances_apply`, `Builder.advances_run` : every operation advances, so does every run;
* `Builder.Reachable` : the builders that a run leads to. Their registries are reachable too
  (`Builder.Reachable.registry`).
-/

set_option autoImplicit false

namespace SemanticSchema

namespace Builder

/-- The operations of a builder. -/
inductive Event where
  | resolveType (name : QualifiedName) (span : Span)
  | addImport (name : QualifiedName)
  | type (e : TypeEvent)
  | declareService (d : ServiceDeclaration)
  | declareOperation (service : QualifiedName) (d : OperationDeclaration)
  | report (d : Diagnostic)
  | registry (e : Registry.Event)

/-- The builder after an operation. -/
def apply (b : Builder) : Event → Builder
  | .resolveType name span => (b.resolveType name span).2
  | .addImport name => b.addImport name
  | .type e => b.applyType e
  | .declareService d => b.declareService d
  | .declareOperation service d => b.declareOperation service d
  | .report d => b.report d
  | .registry e => { b with registry := b.registry.apply e }

/-- The builder after some operations. -/
def run (b : Builder) (events : List Event) : Builder := events.foldl apply b

/-- Whether some run leads from a new builder to this one. -/
def Reachable (b : Builder) : Prop := ∃ (p : Policy) (events : List Event), run { policy := p } events = b

/-- `b'` has the settings of `b`, and a run leads from the registry of `b` to that of `b'`. -/
structure Advances (b b' : Builder) : Prop where
  policy : b'.policy = b.policy
  providers : b'.providers = b.providers
  registry : b.registry.Reaches b'.registry

theorem Advances.refl (b : Builder) : b.Advances b := ⟨rfl, rfl, .refl b.registry⟩

theorem Advances.trans {b₁ b₂ b₃ : Builder} (h : b₁.Advances b₂) (h' : b₂.Advances b₃) : b₁.Advances b₃ :=
  ⟨h'.policy.trans h.policy, h'.providers.trans h.providers, h.registry.trans h'.registry⟩

theorem Advances.standard {b b' : Builder} (h : b.Advances b') (hps : b.providers = .standard) :
    b'.providers = .standard := h.providers.trans hps

variable {b : Builder}

theorem advances_event (b : Builder) (e : Registry.Event) : b.Advances { b with registry := b.registry.apply e } :=
  ⟨rfl, rfl, Registry.reaches_apply b.registry e⟩

/-! ## Building constraints -/

theorem reaches_buildAll (r : Registry) (clauses : List Clause) :
    r.Reaches (Providers.standard.buildAll r clauses).registry := by
  induction clauses generalizing r with
  | nil => exact .refl r
  | cons c rest ih =>
    have hbuild : r.Reaches (Providers.standard.build r c).2 := ⟨c.lookups, (Providers.standard_build_snd r c).symm⟩
    unfold Providers.buildAll
    cases h : Providers.standard.build r c with
    | mk built after =>
      rw [h] at hbuild
      cases built <;> exact hbuild.trans (ih after)

theorem advances_buildClauses (hps : b.providers = .standard) (clauses : List Clause) :
    b.Advances (b.buildClauses clauses).2 := by
  refine ⟨rfl, rfl, ?_⟩
  unfold buildClauses
  rw [hps]
  exact reaches_buildAll b.registry clauses

theorem advances_buildFields (hps : b.providers = .standard) (ds : List FieldDeclaration) :
    b.Advances (b.buildFields ds).2 := by
  induction ds generalizing b with
  | nil => exact .refl b
  | cons d ds ih =>
    have hclauses := advances_buildClauses hps d.clauses
    exact hclauses.trans (ih (hclauses.standard hps))

theorem advances_buildParameters (hps : b.providers = .standard) (ds : List ParameterDeclaration) :
    b.Advances (b.buildParameters ds).2 := by
  induction ds generalizing b with
  | nil => exact .refl b
  | cons d ds ih =>
    have hclauses := advances_buildClauses hps d.clauses
    exact hclauses.trans (ih (hclauses.standard hps))

theorem advances_buildContract (hps : b.providers = .standard) (returns : TypeRef) (clauses : List Clause) :
    b.Advances (b.buildContract returns clauses).2 := by
  unfold buildContract
  split_ifs
  · exact .refl b
  · exact advances_buildClauses hps clauses

/-! ## Operations -/

theorem advances_report (b : Builder) (d : Diagnostic) : b.Advances (b.report d) := ⟨rfl, rfl, .refl b.registry⟩

theorem advances_install (b : Builder) (name : QualifiedName) (d : TypeDefinition) :
    b.Advances (b.install name d).2 := by
  rw [install_snd]
  exact ⟨rfl, rfl, Registry.reaches_apply b.registry (.register name d)⟩

theorem advances_declareType (hps : b.providers = .standard) (d : TypeDeclaration) :
    b.Advances (b.declareType d).2 := by
  rw [declareType_eq_install]
  exact (advances_buildFields hps d.fields).trans (advances_install _ d.name _)

theorem advances_addOperation (b : Builder) (service : QualifiedName) (o : Operation) :
    b.Advances (b.addOperation service o) := by
  unfold addOperation
  split
  · exact advances_report b _
  · split_ifs
    · exact advances_report b _
    · exact ⟨rfl, rfl, .refl b.registry⟩

theorem advances_declareOperation (hps : b.providers = .standard) (service : QualifiedName)
    (d : OperationDeclaration) : b.Advances (b.declareOperation service d) := by
  have hparams := advances_buildParameters hps d.params
  have hcontract := advances_buildContract (hparams.standard hps) d.returns d.contract
  exact (hparams.trans hcontract).trans (advances_addOperation _ service _)

theorem advances_declareOperations (hps : b.providers = .standard) (service : QualifiedName)
    (os : List OperationDeclaration) : b.Advances (os.foldl (fun b o => b.declareOperation service o) b) := by
  induction os generalizing b with
  | nil => exact .refl b
  | cons o os ih =>
    have ho := advances_declareOperation hps service o
    exact ho.trans (ih (ho.standard hps))

theorem advances_declareService (hps : b.providers = .standard) (d : ServiceDeclaration) :
    b.Advances (b.declareService d) := by
  unfold declareService
  split
  · exact advances_report b _
  · let stored : Builder := { b with services := b.services ++ [d.toService] }
    have hstored : b.Advances stored := ⟨rfl, rfl, .refl b.registry⟩
    exact hstored.trans (advances_declareOperations (hstored.standard hps) d.name d.operations)

theorem advances_apply (hps : b.providers = .standard) (e : Event) : b.Advances (b.apply e) := by
  cases e with
  | resolveType name span => exact advances_event b (.resolve span name)
  | addImport name => exact advances_event b (.addImport name)
  | type e =>
    cases e with
    | declare d => exact advances_declareType hps d
    | extend name x => exact ⟨rfl, rfl, .refl b.registry⟩
  | declareService d => exact advances_declareService hps d
  | declareOperation service d => exact advances_declareOperation hps service d
  | report d => exact advances_report b d
  | registry e => exact advances_event b e

/-! ## Runs -/

theorem advances_run (hps : b.providers = .standard) (events : List Event) : b.Advances (b.run events) := by
  induction events generalizing b with
  | nil => exact .refl b
  | cons e es ih =>
    have he := advances_apply hps e
    exact he.trans (ih (he.standard hps))

theorem Reachable.providers (h : b.Reachable) : b.providers = .standard := by
  obtain ⟨p, events, rfl⟩ := h
  exact (advances_run rfl events).providers

/-- The registry of a builder is one that the operations of a registry lead to. -/
theorem Reachable.registry (h : b.Reachable) : b.registry.Reachable := by
  obtain ⟨p, events, rfl⟩ := h
  have hadvances : Advances { policy := p } (run { policy := p } events) := advances_run rfl events
  exact hadvances.registry

end Builder

end SemanticSchema
