import SemanticSchema.Proofs.Builder.Finish

/-!
# The verdict on a schema

The verdict is passed on all reports, before any is promoted or left out. What is shown of them
cannot belie it: a schema that fails shows an error, and a document shows none.

* `Builder.finish_eq_error_iff` : when a schema fails, and what is shown then;
* `Builder.allReports_withMax` : how many reports are to be shown plays no part in the reports made;
* `Builder.finish_verdict` : the verdict, and what is shown with it.
-/

set_option autoImplicit false

namespace SemanticSchema

/-- The same settings but for the number of diagnostics to show. -/
def Policy.withMax (p : Policy) (max : Option Nat) : Policy := { p with maxDiagnostics := max }

namespace Builder

variable {b : Builder}

theorem finish_eq_error_iff {ds : List Diagnostic} :
    b.finish = .error ds ↔ b.policy.fails b.allReports = true ∧ ds = b.shownReports := by
  unfold finish
  cases b.policy.fails b.allReports with
  | true => exact ⟨fun h => ⟨rfl, (Except.error.inj h).symm⟩, fun h => congrArg Except.error h.2.symm⟩
  | false => exact ⟨nofun, fun h => nomatch h.1⟩

theorem isOk_finish (b : Builder) : b.finish.isOk = !b.policy.fails b.allReports := by
  unfold finish
  cases b.policy.fails b.allReports <;> rfl

/-! ## The number of diagnostics to show -/

def withMax (b : Builder) (max : Option Nat) : Builder := { b with policy := b.policy.withMax max }

theorem applyExtension_withMax (b : Builder) (max : Option Nat) (x : QualifiedName × TypeExtension) :
    (b.withMax max).applyExtension x = (b.applyExtension x).withMax max := by
  rw [applyExtension_eq, applyExtension_eq]
  rfl

theorem applyExtensions_withMax (b : Builder) (max : Option Nat) :
    (b.withMax max).applyExtensions = b.applyExtensions.withMax max := by
  have hfold (xs : List (QualifiedName × TypeExtension)) (c : Builder) :
      xs.foldl applyExtension (c.withMax max) = (xs.foldl applyExtension c).withMax max := by
    induction xs generalizing c with
    | nil => rfl
    | cons x xs ih => rw [List.foldl_cons, applyExtension_withMax, ih, List.foldl_cons]
  exact hfold b.pending { b with pending := [] }

theorem allReports_withMax (b : Builder) (max : Option Nat) : (b.withMax max).allReports = b.allReports := by
  unfold allReports
  rw [applyExtensions_withMax]
  rfl

/-! ## What is shown -/

theorem exists_error_of_fails (h : b.policy.fails b.allReports = true) :
    ∃ d ∈ b.shownReports, d.severity = .error := by
  refine Policy.exists_error_of_cap b.policy ?_
  obtain ⟨d, hd, hfatal⟩ := List.any_eq_true.1 h
  exact ⟨_, List.mem_map_of_mem hd, Policy.severity_promote_of_isFatal hfatal⟩

theorem isFatal_of_mem_shownReports {d : Diagnostic} (h : b.policy.fails b.allReports = false)
    (hd : d ∈ b.shownReports) : b.policy.isFatal d.severity = false := by
  obtain ⟨e, he, hseverity⟩ := Policy.severity_of_mem_cap hd
  obtain ⟨reported, hreported, rfl⟩ := List.mem_map.1 he
  have hfatal := Policy.fails_eq_false_iff.1 h reported hreported
  rw [Policy.promote_of_not_isFatal hfatal] at hseverity
  rw [← hseverity]
  exact hfatal

/-- The verdict on a schema, whatever the builder and its policy. It fails just when an error was
reported, or a warning while warnings count as errors, and the number of diagnostics to show does not
matter for it. What is shown of a schema that fails is not empty and has an error in it, also after
promotion and under any cap; what is shown with a document has none, and no warning either if
warnings count as errors. In both cases no more is shown than the cap allows, but always one. -/
theorem finish_verdict (b : Builder) :
    ((∃ ds, b.finish = .error ds) ↔ (∃ d ∈ b.allReports, d.severity = .error) ∨
      b.policy.warningsAsErrors = true ∧ ∃ d ∈ b.allReports, d.severity = .warning) ∧
    (∀ cap, (b.withMax cap).finish.isOk = b.finish.isOk) ∧
    (∀ ds, b.finish = .error ds → ds ≠ [] ∧ ∃ d ∈ ds, d.severity = .error) ∧
    (∀ s, b.finish = .ok s → ∀ d ∈ s.diagnostics, d.severity ≠ .error ∧
      (b.policy.warningsAsErrors = true → d.severity ≠ .warning)) ∧
    ∀ cap, b.policy.maxDiagnostics = some cap →
      (∀ ds, b.finish = .error ds → ds.length ≤ max 1 cap) ∧
      ∀ s, b.finish = .ok s → s.diagnostics.length ≤ max 1 cap := by
  refine ⟨?_, ?_, ?_, ?_, ?_⟩
  · rw [← Policy.fails_iff]
    constructor
    · rintro ⟨ds, hds⟩
      exact (finish_eq_error_iff.1 hds).1
    · intro hfails
      exact ⟨_, finish_eq_error_iff.2 ⟨hfails, rfl⟩⟩
  · intro cap
    rw [isOk_finish, isOk_finish, allReports_withMax]
    rfl
  · intro ds hds
    obtain ⟨hfails, rfl⟩ := finish_eq_error_iff.1 hds
    obtain ⟨d, hd, herror⟩ := exists_error_of_fails hfails
    exact ⟨List.ne_nil_of_mem hd, d, hd, herror⟩
  · intro s hs d hd
    obtain ⟨hpasses, rfl⟩ := finish_eq_ok_iff.1 hs
    have hfatal := isFatal_of_mem_shownReports hpasses hd
    have hnot : ¬ (d.severity = .error ∨ b.policy.warningsAsErrors = true ∧ d.severity = .warning) := by
      rw [← Policy.isFatal_iff, hfatal]
      exact Bool.false_ne_true
    exact ⟨fun herror => hnot (Or.inl herror), fun hset hwarning => hnot (Or.inr ⟨hset, hwarning⟩)⟩
  · intro cap hcap
    have hlength : b.shownReports.length ≤ max 1 cap := by
      rw [Nat.max_comm]
      exact Policy.length_cap_le hcap _
    refine ⟨fun ds hds => ?_, fun s hs => ?_⟩
    · rw [(finish_eq_error_iff.1 hds).2]
      exact hlength
    · rw [(finish_eq_ok_iff.1 hs).2]
      exact hlength

/-- With warnings as errors and nothing to be shown, a warning behind a remark is shown as an error. -/
theorem finish_verdict_capped_warning :
    let remark : Diagnostic := ⟨.internal, .info, .unknown, "remark", [], []⟩
    let warning : Diagnostic := ⟨.shadowedField, .warning, .unknown, "doubtful", [], []⟩
    let b : Builder := {
      policy := { warningsAsErrors := true, maxDiagnostics := some 0 }, diagnostics := [remark, warning] }
    ∃ d, b.finish = .error [d] ∧ d.severity = .error := by
  intro remark warning b
  obtain ⟨hfails, -, herror, -, hlength⟩ := finish_verdict b
  have hreported : warning ∈ b.allReports := List.mem_append_left _ (List.mem_cons_of_mem _ List.mem_cons_self)
  obtain ⟨ds, hds⟩ := hfails.2 (Or.inr ⟨rfl, warning, hreported, rfl⟩)
  obtain ⟨-, d, hd, hseverity⟩ := herror ds hds
  have hshort : ds.length ≤ 1 := (hlength 0 rfl).1 ds hds
  obtain ⟨e, rfl⟩ := List.length_eq_one_iff.1 (Nat.le_antisymm hshort (List.length_pos_of_mem hd))
  obtain rfl := List.mem_singleton.1 hd
  exact ⟨d, hds, hseverity⟩

end Builder

end SemanticSchema
