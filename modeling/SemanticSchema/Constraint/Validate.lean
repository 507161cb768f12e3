import SemanticSchema.Constraint.Provider

/-!
# Validating a model

Every constraint of a finished model is given to every validator that checks it.

* `Registry.targetReports` : the reports on the constraints of one target;
* `Registry.fieldReports`, `Registry.operationReports` : the reports on the fields of the object
  types, and on the contract and parameters of an operation;
* `Registry.constraintReports` : all of them, types first.
-/

set_option autoImplicit false

namespace SemanticSchema

namespace Registry

def constraintReportsOn (r : Registry) (ps : Providers) (site : ConstraintSite)
    (target : ConstraintTarget) (c : Constraint) : List Diagnostic :=
  (ps.validators.filter (·.appliesTo c)).flatMap fun v =>
    (v.faults r site target c).map (Malformation.toDiagnostic r c target)

def targetReports (r : Registry) (ps : Providers) (site : ConstraintSite)
    (target : ConstraintTarget) : List Diagnostic :=
  target.constraints.flatMap (r.constraintReportsOn ps site target)

/-- The reports on the fields of the defined object types, in the order of their slots. -/
def fieldReports (r : Registry) (ps : Providers) : List Diagnostic :=
  r.definedSlots.flatMap fun slot =>
    (r.ownFields slot.1).flatMap fun f => r.targetReports ps (.field slot.1) (.field f)

/-- The reports on an operation: on its contract, then on its parameters. -/
def operationReports (r : Registry) (ps : Providers) (o : Operation) : List Diagnostic :=
  o.contract.toList.flatMap (fun c => r.targetReports ps (.returnContract o) (.contract c))
    ++ o.params.flatMap fun p => r.targetReports ps (.parameter o) (.parameter p)

def constraintReports (r : Registry) (ps : Providers) (services : List Service) :
    List Diagnostic :=
  r.fieldReports ps ++ services.flatMap fun s => s.operations.flatMap (r.operationReports ps)

end Registry

end SemanticSchema
