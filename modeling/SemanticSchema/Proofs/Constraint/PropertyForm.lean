import SemanticSchema.Constraint.Provider
import SemanticSchema.Proofs.Registry.Imports

/-!
# The property form of a constraint

A comparison of a type with a literal can be written as a clause about a property, or as an expression. Either
way it comes to the same constraint, if the expression is brought into property form; and that form has the
place and the text of the expression. No other constraint has one.

* `Constraint.ComparesType` : the expressions that compare a type with a literal, by their shape;
* `Constraint.toProperty_of_comparesType`, `Constraint.toProperty_of_not_comparesType` : what these are brought
  into, and that all others are refused;
* `Constraint.source_of_comparesType` : the two forms have one text;
* `Constraint.toProperty_faithful` : the two ways to the property form agree.
-/

set_option autoImplicit false

namespace SemanticSchema.Constraint

variable {c : Constraint} {t : TypeRef} {op : Operator} {value : Literal}

/-- An expression that compares the value of type `t` with a literal. Which types the expression and its sides
have, and where they stand, plays no part. -/
inductive ComparesType (t : TypeRef) (op : Operator) (value : Literal) : Constraint → Prop
  | intro (typeOf valueOf returns : TypeRef) (left right whole place : Span) :
    ComparesType t op value
      (expression (.comparison (.type t typeOf left) op (.literal value valueOf right) returns whole) place)

theorem toProperty_of_comparesType (h : c.ComparesType t op value) :
    c.toProperty = .ok (property (.byType t) op (.constant value) c.span) := by
  cases h
  rfl

theorem exists_comparesType_of_toProperty {c' : Constraint} (h : c.toProperty = .ok c') :
    ∃ t op value, c.ComparesType t op value := by
  unfold toProperty at h
  split at h
  · exact ⟨_, _, _, .intro ..⟩
  · cases h

theorem toProperty_of_not_comparesType (h : ∀ t op value, ¬ c.ComparesType t op value) :
    ∃ e, c.toProperty = .error e ∧ e.problem = .malformedConstraint ∧ e.severity = .error ∧ e.span = c.span := by
  unfold toProperty
  split
  · exact absurd (.intro ..) (h _ _ _)
  · exact ⟨_, rfl, rfl, rfl, rfl⟩

theorem source_of_comparesType (h : c.ComparesType t op value) (spell : TypeRef → String) (place : Span) :
    (property (.byType t) op (.constant value) place).source spell = c.source spell := by
  cases h
  rfl

/-- A comparison of what a name means with a literal comes to one constraint: the property form of the
expression at some place, and what is built of the clause at that place, whether or not the name has been
resolved before. A constraint has a property form just if it is an expression that compares a type with a
literal, however the two are placed and typed; then both have one place, and one text in every registry. All
other constraints are refused at their places, as malformed. -/
theorem toProperty_faithful (r : Registry) :
    (∀ (name : QualifiedName) (op : Operator) (value : Literal) (returns : TypeRef) (origin right place : Span),
      let (t, after) := r.resolve origin name
      let body := Expression.compare (.ofType t) op (.literal value returns right)
      let clause := Clause.comparison (.typeNamed name) op (.constant value) place
      ∃ c, (expression body place).toProperty = .ok c ∧
        Provider.comparison.build r clause = (.ok c, (r.resolve place name).2) ∧
        Provider.comparison.build after clause = (.ok c, after)) ∧
    (∀ c c' : Constraint, c.toProperty = .ok c' →
      c'.span = c.span ∧ ∀ r' : Registry, c'.source r'.spell = c.source r'.spell) ∧
    (∀ c : Constraint, (∃ c', c.toProperty = .ok c') ↔ ∃ t op value, c.ComparesType t op value) ∧
    ∀ c : Constraint, (¬ ∃ t op value, c.ComparesType t op value) →
      ∃ e, c.toProperty = .error e ∧ e.problem = .malformedConstraint ∧ e.severity = .error ∧ e.span = c.span := by
  refine ⟨?_, ?_, ?_, ?_⟩
  · intro name op value returns origin right place
    have hplace := r.resolve_fst_congr origin place name
    have hagain := r.resolve_resolved origin place name
    refine ⟨property (.byType (r.resolve origin name).1) op (.constant value) place, rfl, ?_, ?_⟩
    · simp only [Provider.comparison, Provider.resolveProperty, hplace]
    · simp only [Provider.comparison, Provider.resolveProperty, hagain]
  · intro c c' h
    obtain ⟨t, op, value, hcompares⟩ := exists_comparesType_of_toProperty h
    cases h.symm.trans (toProperty_of_comparesType hcompares)
    exact ⟨rfl, fun r' => source_of_comparesType hcompares r'.spell c.span⟩
  · intro c
    constructor
    · rintro ⟨c', h⟩
      exact exists_comparesType_of_toProperty h
    · rintro ⟨t, op, value, h⟩
      exact ⟨_, toProperty_of_comparesType h⟩
  · exact fun c h => toProperty_of_not_comparesType fun t op value hcompares => h ⟨t, op, value, hcompares⟩

/-- A comparison of a currency that is declared nowhere yet, and the two sides the other way round. -/
theorem toProperty_faithful_currency :
    let currency := QualifiedName.ofParts "pay" "Currency"
    let amount := Expression.ofType (.primitive .decimal)
    let zero := Expression.literal (.int 0) (.primitive .int) .unknown
    let positive := expression (.compare amount .greaterThan zero) ⟨0, 10, 20, 1⟩
    let turned := expression (.compare zero .lessThan amount) ⟨0, 30, 40, 2⟩
    (∃ c, (expression (.compare (.ofType (.user ⟨0⟩)) .equal (.literal (.text "GBP") .void .unknown))
        .unknown).toProperty = .ok c ∧
      (Provider.comparison.build {} (.comparison (.typeNamed currency) .equal (.constant (.text "GBP"))
        .unknown)).1 = .ok c) ∧
    (∃ c, positive.toProperty = .ok c ∧ c.source ({} : Registry).spell = positive.source ({} : Registry).spell) ∧
    ∃ e, turned.toProperty = .error e ∧ e.severity = .error ∧ e.span = ⟨0, 30, 40, 2⟩ := by
  intro currency amount zero positive turned
  obtain ⟨hbuilt, hkept, -, hrefused⟩ := toProperty_faithful {}
  refine ⟨?_, ?_, ?_⟩
  · obtain ⟨c, hform, hclause, -⟩ := hbuilt currency .equal (.text "GBP") .void .unknown .unknown .unknown
    exact ⟨c, hform, congrArg Prod.fst hclause⟩
  · exact ⟨_, rfl, (hkept positive _ rfl).2 {}⟩
  · have hturned : ¬ ∃ t op value, turned.ComparesType t op value := by
      rintro ⟨t, op, value, h⟩
      change (expression (.comparison (.literal ..) ..) _).ComparesType t op value at h
      cases h
    obtain ⟨e, he, -, hreported⟩ := hrefused turned hturned
    exact ⟨e, he, hreported⟩

end SemanticSchema.Constraint
