import SemanticSchema.Proofs.Builder.Declare
import SemanticSchema.Proofs.Builder.Finish

/-!
# Types may be declared in any order

Every reference to a type is bound late, so the order of the declarations should not show. When the
names are all recorded and each is declared once, it does not: the finished schema is the same, and
so is every report, though the reports come in another order.

* `Builder.Agrees` : two builders that differ only in the order of their reports;
* `Builder.Agrees.allReports` : they agree through the extensions and the final checks;
* `OutcomesAgree`, `Builder.Agrees.finish` : they finish in the same way;
* `Builder.finish_runTypes_perm` : the events of types may come in any order that keeps the order
  of the extensions.
-/

set_option autoImplicit false

namespace SemanticSchema

/-- Two verdicts that differ at most in the order of the reports, as far as all of them are shown. -/
inductive OutcomesAgree (p : Policy) :
    Except (List Diagnostic) FinishedSchema → Except (List Diagnostic) FinishedSchema → Prop
  | ok {document : Document} {ds ds' : List Diagnostic} (h : p.maxDiagnostics = none → ds'.Perm ds) :
    OutcomesAgree p (.ok ⟨document, ds⟩) (.ok ⟨document, ds'⟩)
  | error {ds ds' : List Diagnostic} (h : p.maxDiagnostics = none → ds'.Perm ds) :
    OutcomesAgree p (.error ds) (.error ds')

theorem Policy.fails_perm (p : Policy) {ds ds' : List Diagnostic} (h : ds'.Perm ds) :
    p.fails ds' = p.fails ds := by
  rw [Bool.eq_iff_iff, Policy.fails, Policy.fails, List.any_eq_true, List.any_eq_true]
  constructor
  · rintro ⟨d, hd, hfatal⟩
    exact ⟨d, h.mem_iff.1 hd, hfatal⟩
  · rintro ⟨d, hd, hfatal⟩
    exact ⟨d, h.mem_iff.2 hd, hfatal⟩

namespace Builder

/-- Two builders that differ only in the order of their reports. -/
structure Agrees (b b' : Builder) : Prop where
  policy : b'.policy = b.policy
  providers : b'.providers = b.providers
  registry : b'.registry = b.registry
  services : b'.services = b.services
  pending : b'.pending = b.pending
  diagnostics : b'.diagnostics.Perm b.diagnostics

namespace Agrees

variable {b b' : Builder}

theorem applyExtension (h : b.Agrees b') (x : QualifiedName × TypeExtension) :
    (b.applyExtension x).Agrees (b'.applyExtension x) := by
  rw [applyExtension_eq, applyExtension_eq, h.registry]
  exact ⟨h.policy, h.providers, rfl, h.services, h.pending, h.diagnostics.append_right _⟩

theorem foldl_applyExtension (h : b.Agrees b') (xs : List (QualifiedName × TypeExtension)) :
    (xs.foldl Builder.applyExtension b).Agrees (xs.foldl Builder.applyExtension b') := by
  induction xs generalizing b b' with
  | nil => exact h
  | cons x xs ih => exact ih (h.applyExtension x)

theorem applyExtensions (h : b.Agrees b') : b.applyExtensions.Agrees b'.applyExtensions := by
  unfold Builder.applyExtensions
  rw [h.pending]
  refine foldl_applyExtension ?_ b.pending
  exact ⟨h.policy, h.providers, h.registry, h.services, rfl, h.diagnostics⟩

theorem modelReports (h : b.Agrees b') : b'.modelReports = b.modelReports := by
  unfold Builder.modelReports
  rw [h.registry, h.providers, h.services, h.policy]

theorem allReports (h : b.Agrees b') : b'.allReports.Perm b.allReports := by
  unfold Builder.allReports
  rw [h.applyExtensions.modelReports]
  exact h.applyExtensions.diagnostics.append_right _

theorem shownReports (h : b.Agrees b') (hall : b.policy.maxDiagnostics = none) :
    b'.shownReports.Perm b.shownReports := by
  unfold Builder.shownReports
  rw [h.policy]
  simp only [Policy.cap, hall]
  exact h.allReports.map _

theorem finish (h : b.Agrees b') : OutcomesAgree b.policy b.finish b'.finish := by
  have hfails : b'.policy.fails b'.allReports = b.policy.fails b.allReports := by
    rw [h.policy, Policy.fails_perm b.policy h.allReports]
  unfold Builder.finish
  rw [hfails, h.applyExtensions.registry, h.services]
  split_ifs
  · exact .error h.shownReports
  · exact .ok h.shownReports

end Agrees

/-! ## The events of types -/

variable {b : Builder} {events events' : List TypeEvent}

theorem map_fst_filterMap_registration? (r : Registry) (events : List TypeEvent) :
    (events.filterMap (TypeEvent.registration? r)).map Prod.fst = events.filterMap TypeEvent.declared? := by
  rw [List.map_filterMap]
  refine List.filterMap_congr fun e _ => ?_
  cases e <;> rfl

theorem agrees_runTypes_perm (h : b.Foresees events) (hperm : events'.Perm events)
    (hextensions : events'.filterMap TypeEvent.extension? = events.filterMap TypeEvent.extension?) :
    (b.runTypes events).Agrees (b.runTypes events') := by
  rw [runTypes_eq h, runTypes_eq (h.perm hperm), hextensions]
  refine ⟨rfl, rfl, ?_, rfl, rfl, (hperm.flatMap_right _).append_left _⟩
  have hnames := map_fst_filterMap_registration? b.registry events
  refine (Registry.registerAll_perm (hperm.filterMap _).symm (hnames ▸ h.distinct) fun x hx => ?_).symm
  exact h.recorded x.1 (hnames ▸ List.mem_map_of_mem hx)

/-- Types may be declared in any order. Of some events that are foreseen, take any reordering that
keeps the extensions in their order: the verdict on the schema is the same, the document is the
same, and unless reports are left out, so are the reports up to their order. -/
theorem finish_runTypes_perm (h : b.Foresees events) (hperm : events'.Perm events)
    (hextensions : events'.filterMap TypeEvent.extension? = events.filterMap TypeEvent.extension?) :
    OutcomesAgree b.policy (b.runTypes events).finish (b.runTypes events').finish := by
  have hagrees := (agrees_runTypes_perm h hperm hextensions).finish
  have hpolicy : (b.runTypes events).policy = b.policy := by rw [runTypes_eq h]
  rw [hpolicy] at hagrees
  exact hagrees

/-- A type with a constraint on a property that is found by its type, and the two types that it
refers to, declared forwards and backwards around an extension. -/
theorem finish_runTypes_backwards :
    let colour := QualifiedName.ofParts "paint" "Colour"
    let shade := QualifiedName.ofParts "paint" "Shade"
    let tone := QualifiedName.ofParts "paint" "Tone"
    let b := (((({} : Builder).resolveType colour .unknown).2.resolveType shade .unknown).2.resolveType tone
      .unknown).2
    let dark := Clause.comparison (.typeNamed tone) .equal (.constant (.text "dark")) .unknown
    let first := TypeEvent.declare
      (.object { name := colour, fields := [{ name := "shade", type := .user ⟨1⟩, clauses := [dark] }] })
    let second := TypeEvent.declare
      (.object { name := shade, fields := [{ name := "tone", type := .user ⟨2⟩ }] })
    let third := TypeEvent.declare (.typeAlias { name := tone, target := .primitive .string })
    let extension := TypeEvent.extend colour (.object { fields := [{ name := "shade" }] })
    b.Foresees [first, extension, second, third] ∧
      OutcomesAgree b.policy (b.runTypes [first, extension, second, third]).finish
        (b.runTypes [third, second, extension, first]).finish := by
  intro colour shade tone b dark first second third extension
  have hforesees : b.Foresees [first, extension, second, third] := by
    refine ⟨rfl, by decide, by decide, fun e he c hc => ?_⟩
    have hclauses : [first, extension, second, third].flatMap TypeEvent.clauses = [dark] := rfl
    have hdark : c ∈ [dark] := hclauses ▸ List.mem_flatMap.2 ⟨e, he, hc⟩
    obtain rfl := List.mem_singleton.1 hdark
    intro name hname
    cases hname
    rfl
  have hperm : [third, second, extension, first].Perm [first, extension, second, third] :=
    List.reverse_perm [first, extension, second, third]
  have hextensions : [third, second, extension, first].filterMap TypeEvent.extension? =
      [first, extension, second, third].filterMap TypeEvent.extension? := rfl
  exact ⟨hforesees, finish_runTypes_perm hforesees hperm hextensions⟩

end Builder

end SemanticSchema
