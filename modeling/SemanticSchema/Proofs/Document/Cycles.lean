import SemanticSchema.Proofs.Document.Soundness
import SemanticSchema.Proofs.Registry.Ends
import SemanticSchema.Proofs.Registry.Supertypes

/-!
# Cycles in a document without reports

A type that lies above itself is reported if it is an object type or an enum. Aliases are passed over,
so a document on which there is nothing to report has no cycle but those of aliases.

* `Registry.cycleReport_mem` : an object type or an enum on a cycle is reported;
* `Registry.cycle_iff_of_no_reports` : without reports, every cycle is one of aliases;
* `Registry.IsAlias`, `Registry.isAlias_iff` : the aliases, and the types from which an alias step leads on;
* `Builder.cycles_of_clean` : the cycles of a document without reports, and what its aliases stand for.
-/

set_option autoImplicit false

namespace SemanticSchema

open Relation

namespace Registry

variable {r : Registry} {t above : TypeRef} {p : Policy}

theorem cycleReport_mem {id : TypeId} {x : Record} {span : Span} (hx : r.get? id = some x)
    (hdefined : x.isDefined = true) (hspan : inheritanceSpan? x = some span)
    (hcycle : TransGen r.SupertypeStep (.user id) (.user id)) : cycleReport p x.name span ∈ r.inheritanceReports p := by
  have hmem : cycleReport p x.name span ∈ r.inheritanceReportsOn p id x := by
    simp only [inheritanceReportsOn, hspan, isCyclic_iff.2 hcycle, if_true]
    exact List.mem_append_left _ List.mem_cons_self
  exact List.mem_flatMap.2 ⟨(id, x), mem_definedSlots.2 ⟨hx, hdefined⟩, hmem⟩

/-- A step up starts at an alias, or at a type whose inheritance is declared at some place. -/
theorem SupertypeStep.cases (h : r.SupertypeStep t above) : r.AliasStep t above ∨
    ∃ id x span, t = .user id ∧ r.get? id = some x ∧ x.isDefined = true ∧ inheritanceSpan? x = some span := by
  unfold SupertypeStep directSupertypes at h
  split at h
  · next id =>
    split at h
    · next o origin hget =>
      cases hd : o.definition with
      | none => simp [hd] at h
      | some d => exact Or.inr ⟨id, _, _, rfl, hget, Option.isSome_of_eq_some hd, rfl⟩
    · next e origin hget =>
      cases hd : e.definition with
      | none => simp [hd] at h
      | some d => exact Or.inr ⟨id, _, _, rfl, hget, Option.isSome_of_eq_some hd, rfl⟩
    · next a origin hget =>
      refine Or.inl ?_
      show (r.typeAlias? id).bind (·.target?) = some above
      rw [typeAlias?_eq_some_iff.2 ⟨origin, hget⟩]
      exact Option.mem_toList.1 h
    · cases h
  · cases h

/-! ## Cycles without reports -/

theorem aliasStep_of_no_reports (hreports : r.inheritanceReports p = []) (hstep : r.SupertypeStep t above)
    (hback : ReflTransGen r.SupertypeStep above t) : r.AliasStep t above := by
  rcases hstep.cases with halias | ⟨id, x, span, rfl, hx, hdefined, hspan⟩
  · exact halias
  · have hmem := @cycleReport_mem r p id x span hx hdefined hspan (.head' hstep hback)
    rw [hreports] at hmem
    cases hmem

theorem aliasSteps_of_no_reports (hreports : r.inheritanceReports p = []) (hsteps : TransGen r.SupertypeStep t above)
    (hback : ReflTransGen r.SupertypeStep above t) : TransGen r.AliasStep t above := by
  induction hsteps using TransGen.head_induction_on with
  | single hstep => exact .single (aliasStep_of_no_reports hreports hstep hback)
  | head hstep hrest ih =>
    have halias := aliasStep_of_no_reports hreports hstep (hrest.to_reflTransGen.trans hback)
    exact .head halias (ih (hback.tail hstep))

theorem cycle_iff_of_no_reports (hreports : r.inheritanceReports p = []) :
    TransGen r.SupertypeStep t t ↔ TransGen r.AliasStep t t :=
  ⟨fun hcycle => aliasSteps_of_no_reports hreports hcycle .refl,
    TransGen.mono (fun _ _ => AliasStep.supertypeStep) t t⟩

/-! ## Aliases -/

/-- Whether a type is an alias. -/
def IsAlias (r : Registry) (t : TypeRef) : Prop := ∃ id a, t = .user id ∧ r.typeAlias? id = some a

theorem isAlias_iff (hdefined : ∀ id x, r.get? id = some x → x.isDefined = true) :
    r.IsAlias t ↔ ∃ next, r.AliasStep t next := by
  constructor
  · rintro ⟨id, a, rfl, ha⟩
    obtain ⟨origin, hget⟩ := typeAlias?_eq_some_iff.1 ha
    obtain ⟨d, hd⟩ := Option.isSome_iff_exists.1 (hdefined id _ hget)
    refine ⟨d.target, ?_⟩
    show (r.typeAlias? id).bind (·.target?) = some d.target
    rw [ha]
    exact congrArg (Option.map (·.target)) hd
  · rintro ⟨next, hstep⟩
    obtain ⟨id, rfl⟩ := hstep.exists_user
    obtain ⟨a, ha, -⟩ := Option.bind_eq_some_iff.1 hstep
    exact ⟨id, a, rfl, ha⟩

theorem aliasSteps_underlying_iff (hdefined : ∀ id x, r.get? id = some x → x.isDefined = true) :
    r.IsAlias (r.underlying t) ↔ ∃ u, ReflTransGen r.AliasStep t u ∧ TransGen r.AliasStep u u := by
  rw [isAlias_iff hdefined, aliasStep_underlying_iff]

end Registry

namespace Builder

variable {b : Builder} {s : FinishedSchema}

theorem inheritanceReports_of_clean (h : b.finish = .ok s) (hclean : s.diagnostics = []) :
    s.document.registry.inheritanceReports b.policy = [] := by
  obtain ⟨-, rfl⟩ := finish_eq_ok_iff.1 h
  have hall : b.allReports = [] := List.map_eq_nil_iff.1 (Policy.cap_eq_nil hclean)
  rw [allReports_of_resolved (unresolved_of_finish h)] at hall
  exact (List.append_eq_nil_iff.1 (List.append_eq_nil_iff.1 hall).2).2

/-- The inheritance of a document on which there is nothing to report. Every cycle of its supertypes is
one of aliases that stand for each other, and an alias comes to an alias in the end just when it leads
to such a cycle. -/
theorem cycles_of_clean (h : b.finish = .ok s) (hclean : s.diagnostics = []) :
    (∀ t, TransGen s.document.registry.SupertypeStep t t ↔ TransGen s.document.registry.AliasStep t t) ∧
    ∀ t, s.document.registry.IsAlias (s.document.registry.underlying t) ↔
      ∃ u, ReflTransGen s.document.registry.AliasStep t u ∧ TransGen s.document.registry.AliasStep u u := by
  have hdefined : ∀ id x, s.document.registry.get? id = some x → x.isDefined = true := by
    rw [(finish_eq_ok_iff.1 h).2]
    exact fun id x => Registry.isDefined_of_unresolved (unresolved_of_finish h)
  exact ⟨fun t => Registry.cycle_iff_of_no_reports (inheritanceReports_of_clean h hclean),
    fun t => Registry.aliasSteps_underlying_iff hdefined⟩

/-- A type that inherits from an alias of another type. -/
theorem cycles_of_clean_inherited_alias :
    let events : List Builder.Event := [
      .type (.declare (.object { name := .ofParts "pay" "Money" })),
      .type (.declare (.typeAlias { name := .ofParts "pay" "Amount", target := .user ⟨0⟩ })),
      .type (.declare (.object { name := .ofParts "pay" "Price", inherits := [.user ⟨1⟩] }))]
    ∃ s, (Builder.run {} events).finish = .ok s ∧ s.diagnostics = [] ∧
      s.document.registry.SupertypeStep (.user ⟨2⟩) (.user ⟨1⟩) ∧
      ¬ TransGen s.document.registry.SupertypeStep (.user ⟨2⟩) (.user ⟨2⟩) := by
  intro events
  have hpasses : (Builder.run {} events).policy.fails (Builder.run {} events).allReports = false := by decide +kernel
  have hok := finish_eq_ok_iff.2 ⟨hpasses, rfl⟩
  have hclean : (Builder.run {} events).shownReports = [] := List.length_eq_zero_iff.1 (by decide +kernel)
  refine ⟨_, hok, hclean, by decide +kernel, fun hcycle => ?_⟩
  obtain ⟨next, hstep, -⟩ := TransGen.head'_iff.1 (((cycles_of_clean hok hclean).1 _).1 hcycle)
  exact Registry.not_aliasStep_of_no_target (by decide +kernel) hstep

/-- Two aliases that stand for each other are a cycle on which there is nothing to report. -/
theorem alias_cycle_unreported :
    let events : List Builder.Event := [
      .resolveType (.ofParts "pay" "Amount") .unknown,
      .type (.declare (.typeAlias { name := .ofParts "pay" "Price", target := .user ⟨0⟩ })),
      .type (.declare (.typeAlias { name := .ofParts "pay" "Amount", target := .user ⟨1⟩ }))]
    ∃ s, (Builder.run {} events).finish = .ok s ∧ s.diagnostics = [] ∧
      TransGen s.document.registry.SupertypeStep (.user ⟨0⟩) (.user ⟨0⟩) ∧
      ∃ id, s.document.registry.underlying (.user ⟨0⟩) = .user id ∧ (s.document.registry.typeAlias? id).isSome := by
  intro events
  have hpasses : (Builder.run {} events).policy.fails (Builder.run {} events).allReports = false := by decide +kernel
  have hclean : (Builder.run {} events).shownReports = [] := List.length_eq_zero_iff.1 (by decide +kernel)
  refine ⟨_, finish_eq_ok_iff.2 ⟨hpasses, rfl⟩, hclean, ?_, ⟨1⟩, by decide +kernel, by decide +kernel⟩
  exact .head (b := .user ⟨1⟩) (by decide +kernel) (.single (by decide +kernel))

end Builder

end SemanticSchema
