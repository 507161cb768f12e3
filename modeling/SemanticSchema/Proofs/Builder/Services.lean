import SemanticSchema.Proofs.Builder.Attached

/-!
# Services and their operations

A name belongs to the first service that is declared under it, and within a service to the first operation
that is declared under it. Later declarations of the name are reported and change nothing.

* `Service.Change` : what a declaration does to the services;
* `Service.Distinct`, `Service.Distinct.change` : the names stay distinct;
* `Service.AllGrow`, `Service.AllGrow.of_changes` : services keep their places, and at most grow;
* `Builder.OperationOutcome`, `Builder.outcome_declareOperation` : what comes of declaring an operation;
* `Builder.declareService_cases` : what comes of declaring a service;
* `Builder.services_apply`, `Builder.services_run` : every operation of a builder is a chain of changes to
  its services, and so is every run.
-/

set_option autoImplicit false

namespace SemanticSchema

open Relation

namespace Service

variable {services services' : List Service} {s t : Service} {name : QualifiedName} {i : Nat}

/-- What can happen to services: a new one is stored, or a new operation is added to one. -/
inductive Change (services : List Service) : List Service → Prop
  | stored {s : Service} (hnew : find? services s.name = none) (hempty : s.operations = []) :
    Change services (services ++ [s])
  | operated {i : Nat} {s : Service} {o : Operation} (hs : services[i]? = some s) (hnew : s.operation? o.name = none) :
    Change services (services.set i (s.addOperation o))

/-! ## Finding and storing -/

theorem find?_eq_none_iff : find? services name = none ↔ name ∉ services.map (·.name) := by
  simp [find?, List.find?_eq_none]

theorem operation?_eq_none_iff {operation : String} :
    s.operation? operation = none ↔ operation ∉ s.operations.map (·.name) := by
  simp [operation?, List.find?_eq_none]

theorem find?_cons_of_eq (h : s.name = name) : find? (s :: services) name = some s :=
  List.find?_cons_of_pos (beq_iff_eq.2 h)

theorem find?_cons_of_ne (h : s.name ≠ name) : find? (s :: services) name = find? services name :=
  List.find?_cons_of_neg (by simpa using h)

theorem mem_of_find? (h : find? services name = some s) : s ∈ services ∧ s.name = name :=
  ⟨List.mem_of_find?_eq_some h, name_of_find? h⟩

/-- A service takes the place of the one that is found under its name. -/
theorem put_eq_set (new : Service) (h : find? services new.name = some t) :
    ∃ i : Nat, services[i]? = some t ∧ put new services = services.set i new := by
  induction services with
  | nil => cases h
  | cons u us ih =>
    unfold put
    by_cases hname : u.name = new.name
    · rw [find?_cons_of_eq hname] at h
      rw [if_pos hname]
      exact ⟨0, h, rfl⟩
    · rw [find?_cons_of_ne hname] at h
      rw [if_neg hname]
      obtain ⟨i, hi, hput⟩ := ih h
      exact ⟨i + 1, hi, congrArg (u :: ·) hput⟩

/-! ## Distinct names -/

/-- No two services have the same name, and no two operations of one service. -/
structure Distinct (services : List Service) : Prop where
  names : (services.map (·.name)).Nodup
  operations : ∀ s ∈ services, (s.operations.map (·.name)).Nodup

theorem distinct_nil : Distinct [] := ⟨List.nodup_nil, nofun⟩

theorem map_name_set (hs : services[i]? = some s) (hname : t.name = s.name) :
    (services.set i t).map (·.name) = services.map (·.name) := by
  obtain ⟨hi, rfl⟩ := List.getElem?_eq_some_iff.1 hs
  have hbound : i < (services.map (·.name)).length := by rwa [List.length_map]
  have hold : (services.map (·.name))[i] = t.name := by rw [List.getElem_map, hname]
  rw [List.map_set, ← hold, List.set_getElem_self]

theorem Distinct.change (h : Distinct services) (hchange : Change services services') : Distinct services' := by
  cases hchange with
  | @stored s hnew hempty =>
    refine ⟨?_, fun t ht => ?_⟩
    · rw [List.map_append, List.map_singleton]
      exact h.names.append (List.nodup_singleton _) (List.disjoint_singleton.2 (find?_eq_none_iff.1 hnew))
    · rcases List.mem_append.1 ht with ht | ht
      · exact h.operations t ht
      · rw [List.mem_singleton.1 ht, hempty]
        exact List.nodup_nil
  | @operated i s o hs hnew =>
    refine ⟨?_, fun t ht => ?_⟩
    · rw [map_name_set (t := s.addOperation o) hs rfl]
      exact h.names
    · rcases List.mem_or_eq_of_mem_set ht with ht | rfl
      · exact h.operations t ht
      · have hold := h.operations s (List.mem_of_getElem? hs)
        show ((s.operations ++ [o]).map (·.name)).Nodup
        rw [List.map_append, List.map_singleton]
        exact hold.append (List.nodup_singleton _) (List.disjoint_singleton.2 (operation?_eq_none_iff.1 hnew))

/-- A service whose name no other has is found under its name. -/
theorem Distinct.find?_name (h : Distinct services) (hs : s ∈ services) : find? services s.name = some s := by
  cases hfound : find? services s.name with
  | none => exact absurd (List.mem_map_of_mem hs) (find?_eq_none_iff.1 hfound)
  | some t =>
    obtain ⟨ht, hname⟩ := mem_of_find? hfound
    rw [List.inj_on_of_nodup_map h.names ht hs hname]

/-! ## Growth -/

/-- The same service, perhaps with further operations behind those that it had. -/
structure Grows (s s' : Service) : Prop where
  name : s'.name = s.name
  annotations : s'.annotations = s.annotations
  doc : s'.doc = s.doc
  span : s'.span = s.span
  operations : s.operations <+: s'.operations

theorem Grows.refl (s : Service) : s.Grows s := ⟨rfl, rfl, rfl, rfl, List.prefix_refl _⟩

theorem Grows.trans {s₁ s₂ s₃ : Service} (h : s₁.Grows s₂) (h' : s₂.Grows s₃) : s₁.Grows s₃ :=
  ⟨h'.name.trans h.name, h'.annotations.trans h.annotations, h'.doc.trans h.doc, h'.span.trans h.span,
    h.operations.trans h'.operations⟩

theorem grows_addOperation (s : Service) (o : Operation) : s.Grows (s.addOperation o) :=
  ⟨rfl, rfl, rfl, rfl, List.prefix_append _ _⟩

/-- Every service keeps its place, and at most has grown. -/
def AllGrow (services services' : List Service) : Prop :=
  ∀ (i : Nat) (s : Service), services[i]? = some s → ∃ s', services'[i]? = some s' ∧ s.Grows s'

theorem AllGrow.refl (services : List Service) : AllGrow services services := fun _ s hs => ⟨s, hs, .refl s⟩

theorem AllGrow.trans {ss₁ ss₂ ss₃ : List Service} (h : AllGrow ss₁ ss₂) (h' : AllGrow ss₂ ss₃) : AllGrow ss₁ ss₃ := by
  intro i s hs
  obtain ⟨s', hs', hgrows⟩ := h i s hs
  obtain ⟨s'', hs'', hgrows'⟩ := h' i s' hs'
  exact ⟨s'', hs'', hgrows.trans hgrows'⟩

theorem AllGrow.of_change (h : Change services services') : AllGrow services services' := by
  intro j t ht
  cases h with
  | stored hnew hempty =>
    obtain ⟨hj, -⟩ := List.getElem?_eq_some_iff.1 ht
    exact ⟨t, (List.getElem?_append_left hj).trans ht, .refl t⟩
  | @operated i s o hs hnew =>
    by_cases hij : i = j
    · -- The service at hand is the one that gets the operation.
      obtain ⟨hi, -⟩ := List.getElem?_eq_some_iff.1 hs
      have hst : s = t := Option.some.inj (hs.symm.trans (hij ▸ ht))
      refine ⟨s.addOperation o, ?_, hst ▸ grows_addOperation s o⟩
      rw [← hij, List.getElem?_set_self hi]
    · exact ⟨t, (List.getElem?_set_ne hij).trans ht, .refl t⟩

theorem AllGrow.of_changes (h : ReflTransGen Change services services') : AllGrow services services' := by
  induction h with
  | refl => exact .refl services
  | tail _ hchange ih => exact ih.trans (.of_change hchange)

theorem Distinct.changes (h : Distinct services) (hchanges : ReflTransGen Change services services') :
    Distinct services' := by
  induction hchanges with
  | refl => exact h
  | tail _ hchange ih => exact ih.change hchange

end Service

/-- The clauses of an operation, in the order in which they are built. -/
def OperationDeclaration.clauses (d : OperationDeclaration) : List Clause :=
  d.params.flatMap (·.clauses) ++ d.contract

namespace Builder

variable {b : Builder}

/-! ## Building an operation -/

theorem buildClauses_nil_snd (b : Builder) : (b.buildClauses []).2 = b := by
  simp [buildClauses, Providers.buildAll]

theorem buildClauses_append_snd (b : Builder) (front back : List Clause) :
    (b.buildClauses (front ++ back)).2 = ((b.buildClauses front).2.buildClauses back).2 := by
  simp only [buildClauses, Providers.buildAll_append, List.append_assoc]

theorem buildParameters_snd (b : Builder) (ds : List ParameterDeclaration) :
    (b.buildParameters ds).2 = (b.buildClauses (ds.flatMap (·.clauses))).2 := by
  induction ds generalizing b with
  | nil => exact b.buildClauses_nil_snd.symm
  | cons d ds ih =>
    rw [List.flatMap_cons, buildClauses_append_snd]
    exact ih (b.buildClauses d.clauses).2

theorem buildContract_snd (b : Builder) (returns : TypeRef) (clauses : List Clause) :
    (b.buildContract returns clauses).2 = (b.buildClauses clauses).2 := by
  unfold buildContract
  split_ifs with hempty
  · rw [List.isEmpty_iff.1 hempty, buildClauses_nil_snd]
  · rfl

/-- What the building of an operation leaves behind is what the building of its clauses does. -/
theorem buildOperation_snd (b : Builder) (d : OperationDeclaration) :
    (b.buildOperation d).2 = (b.buildClauses d.clauses).2 := by
  unfold OperationDeclaration.clauses
  rw [buildClauses_append_snd, ← buildParameters_snd]
  exact buildContract_snd _ d.returns d.contract

/-! ## Outcomes -/

/-- What comes of an operation for a service: it is added behind the operations of the service, or it is
reported and the services stay as they are. -/
inductive OperationOutcome (b : Builder) (service : QualifiedName) (o : Operation) : Builder → Prop
  | added {i : Nat} {s : Service} (hs : b.services[i]? = some s) (hname : s.name = service)
    (hnew : s.operation? o.name = none) :
    OperationOutcome b service o { b with services := b.services.set i (s.addOperation o) }
  | redefined {s : Service} (hs : s ∈ b.services) (hname : s.name = service)
    (hknown : (s.operation? o.name).isSome) :
    OperationOutcome b service o (b.report ⟨.duplicateDefinition, .error, o.span,
      "Service " ++ service.display ++ " already declares an operation " ++ o.name, [], []⟩)
  | missing (hnone : ∀ s ∈ b.services, s.name ≠ service) :
    OperationOutcome b service o (b.report ⟨.unresolvedType, .error, o.span,
      "Service " ++ service.display ++ " is not defined", [], []⟩)

theorem outcome_addOperation (b : Builder) (service : QualifiedName) (o : Operation) :
    b.OperationOutcome service o (b.addOperation service o) := by
  unfold addOperation
  cases hfound : Service.find? b.services service with
  | none =>
    refine .missing fun s hs hname => ?_
    exact Service.find?_eq_none_iff.1 hfound (hname ▸ List.mem_map_of_mem hs)
  | some s =>
    obtain ⟨hs, hname⟩ := Service.mem_of_find? hfound
    dsimp only
    split_ifs with hknown
    · exact .redefined hs hname hknown
    · -- The operation does not change the name, so the service is put back where it was found.
      subst hname
      obtain ⟨i, hi, hput⟩ := Service.put_eq_set (s.addOperation o) hfound
      rw [hput]
      exact .added hi rfl (Option.not_isSome_iff_eq_none.1 hknown)

/-- An operation is built first, and then added or reported. -/
theorem outcome_declareOperation (b : Builder) (service : QualifiedName) (d : OperationDeclaration) :
    (b.buildClauses d.clauses).2.OperationOutcome service (b.buildOperation d).1 (b.declareOperation service d) := by
  rw [declareOperation_eq, ← buildOperation_snd]
  exact outcome_addOperation _ service _

/-- What comes of a service: under a new name it is stored without operations, which are then declared
one after another; under the name of another it is reported. -/
inductive ServiceOutcome (b : Builder) (d : ServiceDeclaration) : Builder → Prop
  | stored (hnew : ∀ s ∈ b.services, s.name ≠ d.name) :
    ServiceOutcome b d ((b.addService d).run (d.operations.map (.declareOperation d.name)))
  | redefined {s : Service} (hs : s ∈ b.services) (hname : s.name = d.name) :
    ServiceOutcome b d (b.report ⟨.duplicateDefinition, .error, d.span,
      "Attempting to redefine service " ++ d.name.display, [], []⟩)

theorem outcome_declareService (b : Builder) (d : ServiceDeclaration) :
    b.ServiceOutcome d (b.declareService d) := by
  cases hfound : Service.find? b.services d.name with
  | none =>
    rw [declareService_eq_run hfound]
    exact .stored fun s hs hname => Service.find?_eq_none_iff.1 hfound (hname ▸ List.mem_map_of_mem hs)
  | some s =>
    obtain ⟨hs, hname⟩ := Service.mem_of_find? hfound
    have hreported : b.declareService d = b.report (serviceRedefined d) := by
      unfold declareService
      rw [hfound]
    rw [hreported]
    exact .redefined hs hname

/-! ## Changes -/

theorem OperationOutcome.changes {b' : Builder} {service : QualifiedName} {o : Operation}
    (h : b.OperationOutcome service o b') : ReflTransGen Service.Change b.services b'.services := by
  cases h with
  | added hs hname hnew => exact .single (.operated hs hnew)
  | redefined hs hname hknown => exact .refl
  | missing hnone => exact .refl

theorem changes_declareOperation (b : Builder) (service : QualifiedName) (d : OperationDeclaration) :
    ReflTransGen Service.Change b.services (b.declareOperation service d).services :=
  (b.outcome_declareOperation service d).changes

theorem changes_declareOperations (b : Builder) (service : QualifiedName) (ds : List OperationDeclaration) :
    ReflTransGen Service.Change b.services (b.run (ds.map (.declareOperation service))).services := by
  induction ds generalizing b with
  | nil => exact .refl
  | cons d ds ih => exact (b.changes_declareOperation service d).trans (ih _)

theorem ServiceOutcome.changes {b' : Builder} {d : ServiceDeclaration} (h : b.ServiceOutcome d b') :
    ReflTransGen Service.Change b.services b'.services := by
  cases h with
  | stored hnew =>
    have hstored : Service.Change b.services (b.addService d).services :=
      .stored (by simpa [Service.find?, ServiceDeclaration.toService] using hnew) rfl
    exact .head hstored (changes_declareOperations (b.addService d) d.name d.operations)
  | redefined hs hname => exact .refl

theorem changes_apply (b : Builder) (e : Event) :
    ReflTransGen Service.Change b.services (b.apply e).services := by
  cases e with
  | type e =>
    cases e with
    | declare d => exact (b.services_declareType d).symm ▸ .refl
    | extend name x => exact .refl
  | declareService d => exact (b.outcome_declareService d).changes
  | declareOperation service d => exact b.changes_declareOperation service d
  | resolveType | addImport | report | registry => exact .refl

theorem changes_run (b : Builder) (events : List Event) :
    ReflTransGen Service.Change b.services (b.run events).services := by
  induction events generalizing b with
  | nil => exact .refl
  | cons e es ih => exact (b.changes_apply e).trans (ih _)

end Builder

end SemanticSchema
