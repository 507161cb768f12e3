import SemanticSchema.Proofs.Builder.Services

/-!
# The table of services

A builder keeps its services in a list and finds them by the names that they bear. A table that keeps
each under the name of its declaration, and does not look at the names that services bear, comes to
the same.

* `ServiceTable`, `ServiceTable.run` : the table, and what the operations of a builder do to it;
* `ServiceTable.run_keyed` : it holds the services of the builder, each under its own name;
* `Builder.service_table` : the services of a builder, and what comes of the next declaration.
-/

set_option autoImplicit false

namespace SemanticSchema

/-- Services with their keys, in the order in which the keys came. -/
abbrev ServiceTable := List (QualifiedName × Service)

namespace ServiceTable

/-- Adds an operation to the service under a key. -/
def addOperation (key : QualifiedName) (o : Operation) : ServiceTable → ServiceTable
  | [] => []
  | (k, s) :: t => if k = key then (k, s.addOperation o) :: t else (k, s) :: addOperation key o t

/-- An operation is declared when the builder has come as far as `b`, which builds it. -/
def declareOperation (t : ServiceTable) (b : Builder) (service : QualifiedName) (d : OperationDeclaration) :
    ServiceTable :=
  match t.lookup service with
  | none => t
  | some s => if (s.operation? d.name).isSome then t else t.addOperation service (b.buildOperation d).1

def declareOperations (t : ServiceTable) (b : Builder) (service : QualifiedName) :
    List OperationDeclaration → ServiceTable
  | [] => t
  | d :: ds => (t.declareOperation b service d).declareOperations (b.declareOperation service d) service ds

def declareService (t : ServiceTable) (b : Builder) (d : ServiceDeclaration) : ServiceTable :=
  match t.lookup d.name with
  | some _ => t
  | none => declareOperations (t ++ [(d.name, d.toService)]) (b.addService d) d.name d.operations

/-- The table after an operation of the builder. Only the declarations of services and of operations
write it. -/
def apply (t : ServiceTable) (b : Builder) : Builder.Event → ServiceTable
  | .declareService d => t.declareService b d
  | .declareOperation service d => t.declareOperation b service d
  | _ => t

def run (t : ServiceTable) (b : Builder) : List Builder.Event → ServiceTable
  | [] => t
  | e :: es => (t.apply b e).run (b.apply e) es

/-- The table that has each service under its own name. -/
def keyed (services : List Service) : ServiceTable := services.map fun s => (s.name, s)

variable {services : List Service} {s : Service} {name : QualifiedName}

theorem keyed_cons (s : Service) (ss : List Service) : keyed (s :: ss) = (s.name, s) :: keyed ss := rfl

theorem keyed_append (ss ss' : List Service) : keyed (ss ++ ss') = keyed ss ++ keyed ss' := List.map_append

theorem lookup_keyed : (keyed services).lookup name = Service.find? services name := by
  induction services with
  | nil => rfl
  | cons s ss ih =>
    unfold Service.find? at ih ⊢
    rw [List.find?_cons, ← ih, Bool.beq_comm]
    rfl

theorem addOperation_keyed {o : Operation} (hfound : Service.find? services name = some s) :
    addOperation name o (keyed services) = keyed (Service.put (s.addOperation o) services) := by
  have hname := Service.name_of_find? hfound
  subst hname
  induction services with
  | nil => cases hfound
  | cons t ts ih =>
    have hkey : (s.addOperation o).name = s.name := rfl
    rw [keyed_cons, addOperation, Service.put, hkey]
    by_cases hname : t.name = s.name
    · rw [Service.find?_cons_of_eq hname] at hfound
      cases hfound
      rw [if_pos rfl, if_pos rfl, keyed_cons, hkey]
    · rw [Service.find?_cons_of_ne hname] at hfound
      rw [if_neg hname, if_neg hname, keyed_cons, ih hfound]

theorem declareOperation_keyed (b : Builder) (service : QualifiedName) (d : OperationDeclaration) :
    (keyed b.services).declareOperation b service d = keyed (b.declareOperation service d).services := by
  rw [b.declareOperation_eq]
  unfold declareOperation Builder.addOperation
  rw [lookup_keyed, b.services_buildOperation]
  cases hfound : Service.find? b.services service with
  | none => exact congrArg keyed (b.services_buildOperation d).symm
  | some s =>
    dsimp only
    have hknown : (b.buildOperation d).1.name = d.name := rfl
    rw [hknown]
    split_ifs
    · exact congrArg keyed (b.services_buildOperation d).symm
    · exact addOperation_keyed hfound

theorem declareOperations_keyed (b : Builder) (service : QualifiedName) (ds : List OperationDeclaration) :
    (keyed b.services).declareOperations b service ds =
      keyed (b.run (ds.map (.declareOperation service))).services := by
  induction ds generalizing b with
  | nil => rfl
  | cons d ds ih =>
    unfold declareOperations
    rw [declareOperation_keyed]
    exact ih _

theorem declareService_keyed (b : Builder) (d : ServiceDeclaration) :
    (keyed b.services).declareService b d = keyed (b.declareService d).services := by
  unfold declareService
  rw [lookup_keyed]
  cases hfound : Service.find? b.services d.name with
  | some s =>
    dsimp only
    unfold Builder.declareService
    rw [hfound]
    rfl
  | none =>
    have hstored : keyed (b.addService d).services = keyed b.services ++ [(d.name, d.toService)] :=
      keyed_append b.services [d.toService]
    rw [Builder.declareService_eq_run hfound, ← declareOperations_keyed, hstored]

theorem apply_keyed (b : Builder) (e : Builder.Event) :
    (keyed b.services).apply b e = keyed (b.apply e).services := by
  cases e with
  | type e =>
    cases e with
    | declare d => exact congrArg keyed (b.services_declareType d).symm
    | extend name x => rfl
  | declareService d => exact declareService_keyed b d
  | declareOperation service d => exact declareOperation_keyed b service d
  | resolveType | addImport | report | registry => rfl

/-- The table goes along with the services of the builder. -/
theorem run_keyed (b : Builder) (events : List Builder.Event) :
    (keyed b.services).run b events = keyed (b.run events).services := by
  induction events generalizing b with
  | nil => rfl
  | cons e es ih =>
    unfold run
    rw [apply_keyed]
    exact ih _

end ServiceTable

namespace Builder

theorem distinct_services (p : Policy) (ps : Providers) (events : List Event) :
    Service.Distinct (run { policy := p, providers := ps } events).services :=
  Service.distinct_nil.changes (changes_run { policy := p, providers := ps } events)

/-- The services of a builder, after whatever operations. Each is stored once, under its own name, and no
two of its operations have the same name. Whatever operations follow, it stays where it is with all that
it had, and at most gets further operations behind its own. A declaration of an operation first builds
the clauses, which leaves the services alone; then it adds the one operation or makes the one report,
but not both. A declaration of a service that is not a repetition declares its operations so, one after
another. -/
theorem service_table (p : Policy) (ps : Providers) (events : List Event) :
    let new : Builder := { policy := p, providers := ps }
    let b := new.run events
    ServiceTable.run [] new events = b.services.map (fun s => (s.name, s)) ∧
    (b.services.map (·.name)).Nodup ∧
    (∀ s ∈ b.services, (s.operations.map (·.name)).Nodup ∧ Service.find? b.services s.name = some s) ∧
    (∀ later, Service.AllGrow b.services (b.run later).services) ∧
    (∀ d, b.ServiceOutcome d (b.declareService d)) ∧
    (∀ (c : Builder) (service : QualifiedName) (d : OperationDeclaration),
      let built := c.providers.buildAll c.registry d.clauses
      OperationOutcome { c with registry := built.registry, diagnostics := c.diagnostics ++ built.errors } service
        (c.buildOperation d).1 (c.declareOperation service d)) := by
  intro new b
  have hdistinct : Service.Distinct b.services := distinct_services p ps events
  refine ⟨ServiceTable.run_keyed new events, hdistinct.names, ?_, ?_, b.outcome_declareService, ?_⟩
  · exact fun s hs => ⟨hdistinct.operations s hs, hdistinct.find?_name hs⟩
  · exact fun later => .of_changes (b.changes_run later)
  · exact outcome_declareOperation

/-- A service with an operation declared twice, the service again, the operation again and an operation
of a service that there is not. -/
theorem service_table_first_wins :
    let pay : OperationDeclaration := { name := "pay", returns := .primitive .int, span := ⟨0, 20, 40, 2⟩ }
    let repay : OperationDeclaration := { name := "pay", returns := .primitive .string, span := ⟨0, 50, 70, 3⟩ }
    let till : ServiceDeclaration :=
      { name := .ofParts "shop" "Till", operations := [pay, repay], span := ⟨0, 10, 80, 1⟩ }
    let again : ServiceDeclaration :=
      { name := till.name, operations := [repay], doc := some "Another", span := ⟨0, 90, 120, 5⟩ }
    let events : List Event := [
      .declareService till, .declareService again, .declareOperation till.name repay,
      .declareOperation (.ofParts "shop" "Desk") pay]
    let b := run {} events
    let stored : Service :=
      { name := till.name, operations := [{ name := "pay", returns := .primitive .int, span := pay.span }],
        span := till.span }
    b.services = [stored] ∧
      ServiceTable.run [] {} events = [(till.name, stored)] ∧
      Service.find? b.services till.name = some stored ∧
      b.diagnostics = [
        ⟨.duplicateDefinition, .error, repay.span, "Service shop.Till already declares an operation pay", [], []⟩,
        ⟨.duplicateDefinition, .error, again.span, "Attempting to redefine service shop.Till", [], []⟩,
        ⟨.duplicateDefinition, .error, repay.span, "Service shop.Till already declares an operation pay", [], []⟩,
        ⟨.unresolvedType, .error, pay.span, "Service shop.Desk is not defined", [], []⟩] := by
  intro pay repay till again events b stored
  obtain ⟨htable, -, hnamed, -⟩ := service_table {} .standard events
  have hstored : b.services = [stored] := rfl
  have hmem : stored ∈ b.services := hstored ▸ List.mem_singleton_self stored
  exact ⟨hstored, htable, (hnamed stored hmem).2, rfl⟩

end Builder

end SemanticSchema
