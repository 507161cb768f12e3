import SemanticSchema.Proofs.Policy.Cap

/-!
# What a policy shows

Promotion, sorting and the cap touch the reports that are shown in different ways: promotion changes
severities, sorting the order, the cap leaves reports out and adds a note to the last. None of them
makes up a severity, and the cap always keeps one of the gravest reports.

* `Policy.fails_iff` : which lists of reports are fatal;
* `Policy.severity_promote_of_isFatal`, `Policy.promote_of_not_isFatal` : what is fatal is shown as an
  error, what is not is shown as it is;
* `Policy.exists_error_of_cap` : an error is left among the reports that are shown if there was one;
* `Policy.severity_of_mem_cap` : no other severity is shown than there was;
* `Policy.cap_eq_nil` : something is shown if there was anything;
* `Policy.length_cap_le` : no more are shown than the cap allows, which is at least one.
-/

set_option autoImplicit false

namespace SemanticSchema.Policy

variable {p : Policy} {d : Diagnostic} {ds : List Diagnostic}

/-! ## Fatal reports -/

theorem isFatal_iff {s : Severity} :
    p.isFatal s = true ↔ s = .error ∨ p.warningsAsErrors = true ∧ s = .warning := by
  cases s <;> simp [isFatal]

theorem fails_iff :
    p.fails ds = true ↔ (∃ d ∈ ds, d.severity = .error) ∨
      p.warningsAsErrors = true ∧ ∃ d ∈ ds, d.severity = .warning := by
  simp only [fails, List.any_eq_true, isFatal_iff]
  constructor
  · rintro ⟨d, hd, herror | ⟨hset, hwarning⟩⟩
    · exact Or.inl ⟨d, hd, herror⟩
    · exact Or.inr ⟨hset, d, hd, hwarning⟩
  · rintro (⟨d, hd, herror⟩ | ⟨hset, d, hd, hwarning⟩)
    · exact ⟨d, hd, Or.inl herror⟩
    · exact ⟨d, hd, Or.inr ⟨hset, hwarning⟩⟩

theorem fails_eq_false_iff : p.fails ds = false ↔ ∀ d ∈ ds, p.isFatal d.severity = false := by
  rw [fails, List.any_eq_false]
  constructor
  · intro h d hd
    exact Bool.eq_false_iff.2 (h d hd)
  · intro h d hd
    exact Bool.eq_false_iff.1 (h d hd)

/-! ## Promotion -/

theorem severity_promote_of_isFatal (h : p.isFatal d.severity = true) : (p.promote d).severity = .error := by
  rcases isFatal_iff.1 h with herror | ⟨hset, hwarning⟩
  · unfold promote
    split
    · rfl
    · exact herror
  · simp [promote, hset, hwarning]

theorem promote_of_not_isFatal (h : p.isFatal d.severity = false) : p.promote d = d := by
  have hset : (p.warningsAsErrors && d.severity == .warning) = false := by
    cases hseverity : d.severity with
    | warning => rw [hseverity] at h; exact Bool.and_eq_false_imp.2 fun hset => absurd (h.symm.trans hset) nofun
    | info => exact Bool.and_false _
    | error => exact Bool.and_false _
  rw [promote, hset]
  rfl

/-! ## The cap -/

/-- Errors come first, so an error is among the reports before the cut if there is one at all. -/
theorem exists_error_of_cut {kept dropped : List (Diagnostic × Nat)} (hcut : ranked ds = kept ++ dropped)
    (hkept : kept ≠ []) (h : ∃ d ∈ ds, d.severity = .error) : ∃ d ∈ kept.map Prod.fst, d.severity = .error := by
  obtain ⟨e, he, herror⟩ := h
  have hmem : e ∈ (ranked ds).map Prod.fst := (map_fst_ranked_perm ds).mem_iff.2 he
  rw [hcut, List.map_append] at hmem
  rcases List.mem_append.1 hmem with hmem | hmem
  · exact ⟨e, hmem, herror⟩
  · -- What is kept is as grave as the error that is dropped.
    obtain ⟨b, hb, rfl⟩ := List.mem_map.1 hmem
    obtain ⟨a, ha⟩ := List.exists_mem_of_ne_nil kept hkept
    obtain ⟨-, -, hprecedes⟩ := List.pairwise_append.1 (hcut ▸ pairwise_ranked ds)
    exact ⟨a.1, List.mem_map_of_mem ha, Severity.eq_error_of_rank_le (herror ▸ (hprecedes a ha b hb).rank_le)⟩

/-- What is shown has the severities of a list `kept` of reports, perhaps with a note. -/
theorem exists_kept (p : Policy) (ds : List Diagnostic) :
    ∃ kept : List Diagnostic, (p.cap ds).map Diagnostic.severity = kept.map Diagnostic.severity ∧
      (∀ d ∈ kept, d ∈ ds) ∧ ((∃ d ∈ ds, d.severity = .error) → ∃ d ∈ kept, d.severity = .error) ∧
      ∀ max, p.maxDiagnostics = some max → kept.length ≤ Nat.max max 1 := by
  unfold cap
  cases hmax : p.maxDiagnostics with
  | none => exact ⟨ds, rfl, fun d hd => hd, id, nofun⟩
  | some max =>
    by_cases hshort : ds.length ≤ Nat.max max 1
    · refine ⟨ds, congrArg _ (capTo_of_length_le hshort), fun d hd => hd, id, ?_⟩
      rintro _ ⟨⟩
      exact hshort
    · obtain ⟨kept, dropped, hcut, hkept, hdropped⟩ := exists_cut (Nat.le_of_not_le hshort)
      obtain ⟨front, last, hlast, hshown⟩ := capTo_of_cut (Nat.lt_of_not_le hshort) hcut hkept hdropped
      refine ⟨kept.map Prod.fst, ?_, fun d hd => ?_, exists_error_of_cut hcut fun hnil => ?_, ?_⟩
      · -- The note on the last report leaves its severity as it is.
        simp only [hshown, hlast, List.map_append, List.map_cons, List.map_nil]
      · rw [← (map_fst_ranked_perm ds).mem_iff, hcut, List.map_append]
        exact List.mem_append_left _ hd
      · rw [hnil] at hlast
        exact absurd hlast.symm (List.append_ne_nil_of_right_ne_nil _ (List.cons_ne_nil _ _))
      · rintro _ ⟨⟩
        exact Nat.le_of_eq (by rw [List.length_map, hkept])

theorem exists_error_of_cap (p : Policy) (h : ∃ d ∈ ds, d.severity = .error) :
    ∃ d ∈ p.cap ds, d.severity = .error := by
  obtain ⟨kept, hseverities, -, herror, -⟩ := exists_kept p ds
  obtain ⟨e, he, hseverity⟩ := herror h
  have hmem : Severity.error ∈ (p.cap ds).map Diagnostic.severity := by
    rw [hseverities]
    exact List.mem_map.2 ⟨e, he, hseverity⟩
  exact List.mem_map.1 hmem

theorem severity_of_mem_cap (h : d ∈ p.cap ds) : ∃ e ∈ ds, e.severity = d.severity := by
  obtain ⟨kept, hseverities, hkept, -, -⟩ := exists_kept p ds
  have hmem : d.severity ∈ kept.map Diagnostic.severity := by
    rw [← hseverities]
    exact List.mem_map_of_mem h
  obtain ⟨e, he, hseverity⟩ := List.mem_map.1 hmem
  exact ⟨e, hkept e he, hseverity⟩

theorem cap_eq_nil (h : p.cap ds = []) : ds = [] := by
  unfold cap at h
  cases hmax : p.maxDiagnostics with
  | none => rw [hmax] at h; exact h
  | some max =>
    simp only [hmax] at h
    by_cases hshort : ds.length ≤ Nat.max max 1
    · rwa [capTo_of_length_le hshort] at h
    · obtain ⟨kept, dropped, hcut, hkept, hdropped⟩ := exists_cut (Nat.le_of_not_le hshort)
      obtain ⟨front, last, -, hshown⟩ := capTo_of_cut (Nat.lt_of_not_le hshort) hcut hkept hdropped
      exact absurd (hshown.symm.trans h) (List.append_ne_nil_of_right_ne_nil _ (List.cons_ne_nil _ _))

theorem length_cap_le {max : Nat} (h : p.maxDiagnostics = some max) (ds : List Diagnostic) :
    (p.cap ds).length ≤ Nat.max max 1 := by
  obtain ⟨kept, hseverities, -, -, hlength⟩ := exists_kept p ds
  have hsame := congrArg List.length hseverities
  rw [List.length_map, List.length_map] at hsame
  rw [hsame]
  exact hlength max h

end SemanticSchema.Policy
