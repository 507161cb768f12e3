import SemanticSchema.Finish
import SemanticSchema.Proofs.Registry.Supertypes

/-!
# Reports on inheritance

Every object type and every enum that lies above itself is reported as cyclic, once and at its
definition, whichever way leads back to it. A type that only inherits from such types is not.

* `Record.declaredAt`, `Registry.Inherits` : where a type is declared, and the kinds of types whose
  inheritance is looked at;
* `Registry.inheritanceReportsOn_eq` : the reports on one type, group by group;
* `Registry.filter_inheritanceReportsOn` : those of some problem among them;
* `Registry.filter_inheritanceReports` : the reports of cycles among those on all types;
* `Registry.cycles_reported` : which types are reported as cyclic.
-/

set_option autoImplicit false

namespace SemanticSchema

/-- The place of the definition of a type, or of its first mention as long as it has none. -/
def Record.declaredAt (x : Record) : Span := (x.body.definition?.map (·.span)).getD x.origin

namespace Registry

open Relation

/-- Whether a type is of a kind whose inheritance is looked at. -/
def Inherits (x : Record) : Prop := x.body.kind = .object ∨ x.body.kind = .enum

instance (x : Record) : Decidable (Inherits x) := inferInstanceAs (Decidable (_ ∨ _))

theorem inheritanceSpan?_eq (x : Record) : inheritanceSpan? x = if Inherits x then some x.declaredAt else none := by
  obtain ⟨body, origin⟩ := x
  cases body with
  | object t =>
    refine Eq.trans ?_ (if_pos (Or.inl rfl)).symm
    cases ht : t.definition <;> simp [inheritanceSpan?, Record.declaredAt, TypeBody.definition?, ht, TypeDefinition.span]
  | enum t =>
    refine Eq.trans ?_ (if_pos (Or.inr rfl)).symm
    cases ht : t.definition <;> simp [inheritanceSpan?, Record.declaredAt, TypeBody.definition?, ht, TypeDefinition.span]
  | typeAlias t => rfl
  | annotationType t => rfl

/-! ## Reports on one type -/

/-- The report of a cycle through a type, if there is one. -/
def cycleReports (r : Registry) (p : Policy) (id : TypeId) (x : Record) : List Diagnostic :=
  if r.isCyclic (.user id) = true then [cycleReport p x.name x.declaredAt] else []

/-- The report of several bases of a type, if it has so many. -/
def basesReports (r : Registry) (id : TypeId) (x : Record) : List Diagnostic :=
  if 1 < (r.enumRoots id).length then [r.severalBasesReport x.name x.declaredAt (r.enumRoots id)] else []

/-- The reports on the own fields of a type that repeat an inherited name, if the policy asks for them. -/
def shadowReports (r : Registry) (p : Policy) (id : TypeId) (x : Record) : List Diagnostic :=
  p.shadowedFields.toList.flatMap fun severity => (r.shadowedFields id).map (shadowReport severity x.name)

theorem inheritanceReportsOn_eq (r : Registry) (p : Policy) (id : TypeId) (x : Record) :
    r.inheritanceReportsOn p id x =
      if Inherits x then r.cycleReports p id x ++ r.basesReports id x ++ r.shadowReports p id x else [] := by
  unfold inheritanceReportsOn
  rw [inheritanceSpan?_eq]
  by_cases hinherits : Inherits x
  · rw [if_pos hinherits, if_pos hinherits, shadowReports]
    cases p.shadowedFields with
    | none => rfl
    | some severity => simp only [Option.toList_some, List.flatMap_singleton]; rfl
  · rw [if_neg hinherits, if_neg hinherits]

theorem mem_inheritanceReportsOn_iff {r : Registry} {p : Policy} {id : TypeId} {x : Record} {d : Diagnostic} :
    d ∈ r.inheritanceReportsOn p id x ↔ Inherits x ∧
      (r.isCyclic (.user id) = true ∧ d = cycleReport p x.name x.declaredAt ∨
        1 < (r.enumRoots id).length ∧ d = r.severalBasesReport x.name x.declaredAt (r.enumRoots id) ∨
        ∃ severity, p.shadowedFields = some severity ∧
          ∃ f ∈ r.shadowedFields id, d = shadowReport severity x.name f) := by
  simp only [inheritanceReportsOn_eq, cycleReports, basesReports, shadowReports, List.mem_ite_nil_right,
    List.mem_append, List.mem_singleton, List.mem_flatMap, List.mem_map, Option.mem_toList, or_assoc,
    eq_comm]

/-! ## Reports by their problem -/

/-- Of reports that all have the same problem, those of some problem are all or none. -/
theorem filter_problem {own : Problem} {ds : List Diagnostic} (h : ∀ d ∈ ds, d.problem = own) (problem : Problem) :
    ds.filter (·.problem = problem) = if own = problem then ds else [] := by
  split_ifs with hsame
  · exact List.filter_eq_self.2 fun d hd => decide_eq_true ((h d hd).trans hsame)
  · exact List.filter_eq_nil_iff.2 fun d hd hproblem => hsame ((h d hd).symm.trans (of_decide_eq_true hproblem))

theorem problem_of_mem_cycleReports {r : Registry} {p : Policy} {id : TypeId} {x : Record} :
    ∀ d ∈ r.cycleReports p id x, d.problem = .cyclicInheritance := by
  intro d hd
  rw [List.mem_singleton.1 (List.mem_ite_nil_right.1 hd).2]
  rfl

theorem problem_of_mem_basesReports {r : Registry} {id : TypeId} {x : Record} :
    ∀ d ∈ r.basesReports id x, d.problem = .multipleEnumBases := by
  intro d hd
  rw [List.mem_singleton.1 (List.mem_ite_nil_right.1 hd).2]
  rfl

theorem problem_of_mem_shadowReports {r : Registry} {p : Policy} {id : TypeId} {x : Record} :
    ∀ d ∈ r.shadowReports p id x, d.problem = .shadowedField := by
  intro d hd
  obtain ⟨severity, -, hd⟩ := List.mem_flatMap.1 hd
  obtain ⟨f, -, rfl⟩ := List.mem_map.1 hd
  rfl

/-- The reports on one type come in three groups, each of one problem. -/
theorem filter_inheritanceReportsOn (r : Registry) (p : Policy) (id : TypeId) (x : Record) (problem : Problem) :
    (r.inheritanceReportsOn p id x).filter (·.problem = problem) = if Inherits x then
      (if .cyclicInheritance = problem then r.cycleReports p id x else []) ++
      (if .multipleEnumBases = problem then r.basesReports id x else []) ++
      (if .shadowedField = problem then r.shadowReports p id x else []) else [] := by
  rw [inheritanceReportsOn_eq]
  by_cases hinherits : Inherits x
  · rw [if_pos hinherits, if_pos hinherits, List.filter_append, List.filter_append,
      filter_problem problem_of_mem_cycleReports, filter_problem problem_of_mem_basesReports,
      filter_problem problem_of_mem_shadowReports]
  · rw [if_neg hinherits, if_neg hinherits]
    rfl

/-! ## Reports of cycles -/

theorem flatMap_ite {α β : Type} (P : α → Prop) [DecidablePred P] (f : α → List β) (l : List α) :
    (l.flatMap fun a => if P a then f a else []) = (l.filter (P ·)).flatMap f := by
  induction l with
  | nil => rfl
  | cons a l ih =>
    rw [List.flatMap_cons, ih]
    by_cases h : P a
    · rw [if_pos h, List.filter_cons, if_pos (decide_eq_true h), List.flatMap_cons]
    · rw [if_neg h, List.filter_cons, if_neg (by simpa using h), List.nil_append]

theorem filter_inheritanceReports (r : Registry) (p : Policy) :
    (r.inheritanceReports p).filter (·.problem = .cyclicInheritance) =
      (r.definedSlots.filter fun slot => Inherits slot.2 ∧ r.isCyclic (.user slot.1) = true).map fun slot =>
        cycleReport p slot.2.name slot.2.declaredAt := by
  rw [inheritanceReports, List.filter_flatMap, List.map_eq_flatMap, ← flatMap_ite]
  refine List.flatMap_congr fun slot _ => ?_
  rw [filter_inheritanceReportsOn, ite_and, cycleReports]
  simp

/-- The search finds a way back to a type just when there is one. The reports of cyclic inheritance are
one for each defined object type and enum to which a way leads back, be it by aliases, in the order of
their slots, each at the declaration of its type and with the severity of the policy; a type that only
inherits from such types is not among them. -/
theorem cycles_reported (r : Registry) (p : Policy) :
    (∀ t, r.isCyclic t = true ↔ TransGen r.SupertypeStep t t) ∧
    ∃ cyclic : List (TypeId × Record),
      (r.inheritanceReports p).filter (·.problem = .cyclicInheritance) =
        (cyclic.map fun slot => ⟨.cyclicInheritance, p.cyclicInheritance, slot.2.declaredAt,
          "Type " ++ slot.2.name.display ++ " inherits from itself", [], []⟩) ∧
      cyclic.Pairwise (fun slot slot' => slot.1.slot < slot'.1.slot) ∧
      ∀ id x, (id, x) ∈ cyclic ↔ r.get? id = some x ∧ x.isDefined = true ∧
        (x.body.kind = .object ∨ x.body.kind = .enum) ∧ TransGen r.SupertypeStep (.user id) (.user id) := by
  refine ⟨fun t => isCyclic_iff, _, r.filter_inheritanceReports p, r.pairwise_definedSlots.filter _, fun id x => ?_⟩
  rw [List.mem_filter, mem_definedSlots, decide_eq_true_eq, isCyclic_iff, and_assoc]
  rfl

/-- Of the types that are entangled all are reported but the alias, here as errors, and the one below them is not. -/
theorem cycles_reported_entangled :
    entangled.inheritanceReports { cyclicInheritance := .error } = [
      ⟨.cyclicInheritance, .error, ⟨0, 10, 50, 2⟩, "Type pay.Order inherits from itself", [], []⟩,
      ⟨.cyclicInheritance, .error, ⟨0, 80, 100, 4⟩, "Type pay.Status inherits from itself", [], []⟩,
      ⟨.cyclicInheritance, .error, ⟨0, 100, 130, 5⟩, "Type pay.Entity inherits from itself", [], []⟩] ∧
    entangled.SupertypeStep (.user ⟨4⟩) (.user ⟨0⟩) ∧
    ¬ TransGen entangled.SupertypeStep (.user ⟨4⟩) (.user ⟨4⟩) := by
  refine ⟨by decide +kernel, by decide +kernel, fun hcycle => ?_⟩
  exact absurd (((cycles_reported entangled {}).1 _).2 hcycle) (by decide +kernel)

end Registry

end SemanticSchema
