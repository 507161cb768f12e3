import SemanticSchema.Finish
import SemanticSchema.Proofs.Policy.Shown
import SemanticSchema.Proofs.Registry.Run

/-!
# What finishing does

Finishing writes the registry only where it applies the extensions, and answers a document just when
no report is fatal. An error always is.

* `Builder.applyExtension_eq`, `Builder.applyExtensions_eq` : the extensions that wait are a run of the
  registry; each refusal is reported;
* `Builder.finish_eq_ok_iff` : when there is a document, and which;
* `Builder.severity_ne_error_of_finish` : no report on a document is an error;
* `Builder.allReports_of_resolved` : the reports on a schema whose names are all defined;
* `Builder.modelReports_of_finish` : so is every name of a document, and every check was made.
-/

set_option autoImplicit false

namespace SemanticSchema

namespace Builder

variable {b : Builder} {s : FinishedSchema}

/-! ## Extensions -/

theorem applyExtension_eq (b : Builder) (x : QualifiedName × TypeExtension) :
    b.applyExtension x =
      { b with
        registry := b.registry.apply (.extend x.1 x.2)
        diagnostics := b.diagnostics ++ (b.registry.extend x.1 x.2).1.toList } := by
  unfold applyExtension
  simp only [Registry.apply]
  cases b.registry.extend x.1 x.2 with
  | mk refusal r =>
    cases refusal with
    | none => simp
    | some refusal => rfl

theorem foldl_applyExtension (b : Builder) (xs : List (QualifiedName × TypeExtension)) :
    ∃ refusals, xs.foldl applyExtension b =
      { b with
        registry := b.registry.run (xs.map fun x => .extend x.1 x.2)
        diagnostics := b.diagnostics ++ refusals } := by
  induction xs generalizing b with
  | nil => exact ⟨[], by simp [Registry.run]⟩
  | cons x xs ih =>
    obtain ⟨refusals, hrest⟩ := ih (b.applyExtension x)
    refine ⟨(b.registry.extend x.1 x.2).1.toList ++ refusals, ?_⟩
    rw [List.foldl_cons, hrest, applyExtension_eq]
    simp only [List.append_assoc]
    rfl

/-- Applying the extensions that wait is a run of the registry. -/
theorem applyExtensions_eq (b : Builder) :
    ∃ refusals, b.applyExtensions =
      { b with
        registry := b.registry.run (b.pending.map fun x => .extend x.1 x.2)
        pending := []
        diagnostics := b.diagnostics ++ refusals } :=
  foldl_applyExtension { b with pending := [] } b.pending

theorem reaches_applyExtensions (b : Builder) : b.registry.Reaches b.applyExtensions.registry := by
  obtain ⟨refusals, hextensions⟩ := b.applyExtensions_eq
  rw [hextensions]
  exact ⟨_, rfl⟩

/-! ## The verdict -/

theorem finish_eq_ok_iff : b.finish = .ok s ↔
    b.policy.fails b.allReports = false ∧ s = ⟨⟨b.applyExtensions.registry, b.services⟩, b.shownReports⟩ := by
  unfold finish
  cases b.policy.fails b.allReports with
  | true => exact ⟨nofun, fun h => nomatch h.1⟩
  | false => exact ⟨fun h => ⟨rfl, (Except.ok.inj h).symm⟩, fun h => congrArg Except.ok h.2.symm⟩

theorem severity_ne_error_of_finish (h : b.finish = .ok s) : ∀ d ∈ b.allReports, d.severity ≠ .error := by
  intro d hd herror
  have hfatal := Policy.fails_eq_false_iff.1 (finish_eq_ok_iff.1 h).1 d hd
  rw [herror] at hfatal
  cases hfatal

theorem unresolved_of_finish (h : b.finish = .ok s) : b.applyExtensions.registry.unresolved = [] := by
  cases hunresolved : b.applyExtensions.registry.unresolved with
  | nil => rfl
  | cons d ds =>
    have hmem : d ∈ b.allReports := by
      unfold allReports modelReports
      rw [hunresolved]
      exact List.mem_append_right _ List.mem_cons_self
    have hd : d ∈ b.applyExtensions.registry.unresolved := hunresolved ▸ List.mem_cons_self
    obtain ⟨x, -, rfl⟩ := List.mem_map.1 hd
    exact absurd rfl (severity_ne_error_of_finish h _ hmem)

/-- When every name is defined, the reports are those made before, those on the constraints and those
on the inheritance of the extended types. -/
theorem allReports_of_resolved (h : b.applyExtensions.registry.unresolved = []) :
    b.allReports = b.applyExtensions.diagnostics ++
      (b.applyExtensions.registry.constraintReports b.providers b.services ++
        b.applyExtensions.registry.inheritanceReports b.policy) := by
  obtain ⟨refusals, hextensions⟩ := b.applyExtensions_eq
  have hproviders : b.applyExtensions.providers = b.providers := by rw [hextensions]
  have hservices : b.applyExtensions.services = b.services := by rw [hextensions]
  have hpolicy : b.applyExtensions.policy = b.policy := by rw [hextensions]
  unfold allReports modelReports
  rw [h, hproviders, hservices, hpolicy]

/-- Of a document every constraint and the inheritance of every type was looked at, and nothing that
was found is an error. -/
theorem modelReports_of_finish (h : b.finish = .ok s) :
    ∀ d ∈ s.document.registry.constraintReports b.providers s.document.services ++
      s.document.registry.inheritanceReports b.policy, d.severity ≠ .error := by
  intro d hd
  refine severity_ne_error_of_finish h d ?_
  rw [(finish_eq_ok_iff.1 h).2] at hd
  rw [allReports_of_resolved (unresolved_of_finish h)]
  exact List.mem_append_right _ hd

end Builder

end SemanticSchema
