import SemanticSchema.Constraint.Provider

/-!
# Building constraints

* `Providers.build` : the constraint of one clause, or the reports on it;
* `Providers.buildAll` : the constraints of several clauses. A clause that cannot be built is
  reported and does not stop the others.
-/

set_option autoImplicit false

namespace SemanticSchema

def Clause.providerNotFound (clause : Clause) : Diagnostic :=
  .error .providerNotFound clause.span
    ("No constraint provider found for " ++ clause.shape.display ++ " constraint")

/-- What came of some clauses. -/
structure BuiltConstraints where
  constraints : List Constraint := []
  errors : List Diagnostic := []
  registry : Registry
deriving Inhabited

namespace Providers

/-- The constraint of a clause, or the reports on it. -/
def build (ps : Providers) (r : Registry) (clause : Clause) :
    Except (List Diagnostic) Constraint × Registry :=
  match ps.select? clause with
  | none => (.error [clause.providerNotFound], r)
  | some p => p.build r clause

/-- The constraints of several clauses, and the reports on those that cannot be built, each in the
order of the clauses. -/
def buildAll (ps : Providers) (r : Registry) : List Clause → BuiltConstraints
  | [] => ⟨[], [], r⟩
  | clause :: rest =>
    match ps.build r clause with
    | (.ok c, r) =>
      let built := buildAll ps r rest
      { built with constraints := c :: built.constraints }
    | (.error es, r) =>
      let built := buildAll ps r rest
      { built with errors := es ++ built.errors }

end Providers

end SemanticSchema
