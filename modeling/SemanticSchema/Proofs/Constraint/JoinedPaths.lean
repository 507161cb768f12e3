import SemanticSchema.Proofs.Constraint.ImportedPaths

/-!
# Paths in two parts

A path may be cut anywhere: what it finds is found by following its first part, unwrapping the type of the
field there, and following the second part. A path from a parameter is cut behind the parameter.

* `Registry.parameterPathError?_eq_none_iff` : a path from a parameter is right just when it leads
  somewhere;
* `Registry.paths_compose` : both kinds of path, cut in two;
* `Registry.layeredSale` : a field that is inherited, refined, and of an alias of an array.
-/

set_option autoImplicit false

namespace SemanticSchema.Registry

variable {r : Registry} {o : Operation} {path : PropertyPath}

theorem parameterPathError?_eq_none_iff : r.parameterPathError? o path = none ↔ r.ParameterPathResolves o path := by
  constructor
  · exact parameterPathResolves_of_error?_eq_none
  · intro h
    cases h with
    | parameter hp => simp [parameterPathError?, hp]
    | property hp hobject hf => rw [parameterPathError?_of_unwrapsTo hp hobject, hf]

theorem parameterPathResolves_cons_iff {head : String} {rest : List String} (hrest : rest ≠ []) :
    r.ParameterPathResolves o ⟨head :: rest⟩ ↔ ∃ p object f, o.parameter? head = some p ∧
      r.unwrapObject? p.type = some object ∧ r.fieldOnPath object ⟨rest⟩ = .ok f := by
  constructor
  · intro h
    cases h with
    | parameter hp => exact absurd rfl hrest
    | property hp hobject hf => exact ⟨_, _, _, hp, unwrapObject?_eq_some_iff.2 hobject, hf⟩
  · rintro ⟨p, object, f, hp, hobject, hf⟩
    obtain ⟨next, rest, rfl⟩ := List.exists_cons_of_ne_nil hrest
    exact .property hp (unwrapObject?_eq_some_iff.1 hobject) hf

/-- A path in two parts finds what the second part finds in the object type behind the field at the end of the
first part. Where the first part finds no field the whole path fails for the same reason, and where no
object type stands behind the field its type is named. A path from a parameter that goes on behind it is
right just when there is such a parameter, with an object type behind it in which the rest finds a field. -/
theorem paths_compose (r : Registry) {front back : List String} (hfront : front ≠ []) (hback : back ≠ []) :
    (∀ object, r.fieldOnPath object ⟨front ++ back⟩ =
      (r.fieldOnPath object ⟨front⟩).bind fun f =>
        match r.unwrapObject? f.type with
        | none => .error (.notAnObject (r.nameOf f.type))
        | some inner => r.fieldOnPath inner ⟨back⟩) ∧
    ∀ (o : Operation) (head : String), r.parameterPathError? o ⟨head :: back⟩ = none ↔
      ∃ p object f, o.parameter? head = some p ∧ r.unwrapObject? p.type = some object ∧
        r.fieldOnPath object ⟨back⟩ = .ok f := by
  refine ⟨fun object => ?_, fun o head => ?_⟩
  · rw [fieldOnPath_append r object hfront hback]
    refine congrArg _ (funext fun f => ?_)
    unfold objectBehind
    cases r.unwrapObject? f.type <;> rfl
  · exact parameterPathError?_eq_none_iff.trans (parameterPathResolves_cons_iff hback)

/-- A sale is an order, and the price of an order is refined to an alias of an array of amounts of money. -/
def layeredSale : Registry :=
  ({} : Registry).run
    [.register (.ofParts "pay" "Money") (.object { fields := [{ name := "currency", type := .primitive .string }] }),
      .register (.ofParts "pay" "Prices") (.typeAlias { target := .array (.user ⟨0⟩) }),
      .register (.ofParts "pay" "Order") (.object { fields := [{ name := "price", type := .primitive .any }] }),
      .extend (.ofParts "pay" "Order") (.object { fields := [{ name := "price", refinement := some ⟨.user ⟨1⟩, none⟩ }] }),
      .register (.ofParts "pay" "Sale") (.object { fields := [], inherits := [.user ⟨2⟩] })]

/-- The currency of the price of a sale is found, also behind a parameter; its country is not. -/
theorem paths_compose_sale :
    let find (path : List String) := (layeredSale.fieldOnPath ⟨3⟩ ⟨path⟩).map fun f => (f.name, f.type)
    let bill : Operation := { name := "bill", params := [{ name := some "sale", type := .user ⟨3⟩ }], returns := .void }
    find (["price"] ++ ["currency"]) = .ok ("currency", .primitive .string) ∧
      find (["price"] ++ ["country"]) = .error (.noSuchField (.ofParts "pay" "Money") "country") ∧
      find (["price", "currency"] ++ ["code"]) = .error (.notAnObject Primitive.string.name) ∧
      layeredSale.parameterPathError? bill ⟨"sale" :: ["price", "currency"]⟩ = none := by
  intro find bill
  have hcurrency := (@paths_compose layeredSale ["price"] ["currency"] nofun nofun).1 ⟨3⟩
  have hcountry := (@paths_compose layeredSale ["price"] ["country"] nofun nofun).1 ⟨3⟩
  have hcode := (@paths_compose layeredSale ["price", "currency"] ["code"] nofun nofun).1 ⟨3⟩
  obtain ⟨-, hparameter⟩ := @paths_compose layeredSale ["price"] ["price", "currency"] nofun nofun
  have hfound : find (["price"] ++ ["currency"]) = .ok ("currency", .primitive .string) := by
    simp only [find, hcurrency]
    decide +kernel
  refine ⟨hfound, ?_, ?_, ?_⟩
  · simp only [find, hcountry]
    decide +kernel
  · simp only [find, hcode]
    decide +kernel
  · cases hprice : layeredSale.fieldOnPath ⟨3⟩ ⟨["price", "currency"]⟩ with
    | ok f => exact (hparameter bill "sale").2 ⟨_, ⟨3⟩, f, rfl, by decide +kernel, hprice⟩
    | error e =>
      simp only [find, List.cons_append, List.nil_append, hprice] at hfound
      cases hfound

end SemanticSchema.Registry
