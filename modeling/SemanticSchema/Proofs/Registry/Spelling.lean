import SemanticSchema.Proofs.Registry.Imports

/-!
# The names of references

A reference has a name, and the name stands for the reference. It need not be the name that the
reference was made from: a built-in may be written without its namespace, and with parameters that play
no part.

* `QualifiedName.standard`, `QualifiedName.canonical` : the one spelling of a built-in, and of an array;
* `QualifiedName.element_canonical`, `QualifiedName.arrayLayers_canonical` : it has as many array layers,
  and the standard spelling behind them;
* `Registry.meaning?_standard` : a name and its standard spelling mean the same;
* `Registry.nameOf_of_meaning?`, `Registry.nameOf_array_iterate` : what means something by itself is
  called by the standard spelling, and what is behind array layers by the canonical one;
* `Registry.resolve_nameOf` : so a name resolves to a reference called by the canonical spelling, and
  that resolves to the same reference.
-/

set_option autoImplicit false

namespace SemanticSchema

namespace QualifiedName

variable {name : QualifiedName}

/-- The name of a built-in in its own namespace and without parameters; any other name as it is. -/
def standard (name : QualifiedName) : QualifiedName :=
  match name.builtin? with
  | some _ => ofParts builtinNamespace name.simple
  | none => name

/-- An array of what some name stands for. -/
def arrayOf (member : QualifiedName) : QualifiedName := ⟨builtinNamespace, TypeRef.arrayName, [member]⟩

/-- The name with the built-ins in their own namespace: array layers, and what is behind them. -/
def canonical : QualifiedName → QualifiedName
  | ⟨ns, simple, [m]⟩ =>
    if isBuiltin ⟨ns, simple, [m]⟩ TypeRef.arrayName then arrayOf m.canonical else standard ⟨ns, simple, [m]⟩
  | name => name.standard

/-! ## Built-ins -/

theorem builtin?_congr {n m : QualifiedName} (h : ∀ simple, n.isBuiltin simple = m.isBuiltin simple) :
    n.builtin? = m.builtin? := by
  simp only [builtin?, Primitive.ofName?, h]

theorem isBuiltin_iff {simple : String} : name.isBuiltin simple = true ↔
    name.simple = simple ∧ (name.isUnqualified || name.ns == builtinNamespace) = true := by
  rw [isBuiltin, Bool.and_eq_true, beq_iff_eq]

/-- A built-in is called by its simple name. -/
theorem builtin?_eq_some_cases {t : TypeRef} (h : name.builtin? = some t) :
    (∃ p, t = .primitive p ∧ name.isBuiltin p.simpleName = true) ∨
      t = .void ∧ name.isBuiltin TypeRef.voidName = true := by
  unfold builtin? at h
  cases hprimitive : Primitive.ofName? name with
  | some p =>
    rw [hprimitive] at h
    unfold Primitive.ofName? at hprimitive
    have hp := List.find?_some hprimitive
    exact Or.inl ⟨p, (Option.some.inj h).symm, hp⟩
  | none =>
    simp only [hprimitive, Option.ite_none_right_eq_some] at h
    exact Or.inr ⟨(Option.some.inj h.2).symm, h.1⟩

theorem standard_of_builtin? {t : TypeRef} (h : name.builtin? = some t) :
    name.standard = ofParts builtinNamespace name.simple := by
  rw [standard, h]

theorem standard_of_builtin?_eq_none (h : name.builtin? = none) : name.standard = name := by
  rw [standard, h]

theorem builtin?_standard (name : QualifiedName) : name.standard.builtin? = name.builtin? := by
  cases h : name.builtin? with
  | none => rw [standard_of_builtin?_eq_none h, h]
  | some t =>
    obtain ⟨simple, hbuiltin⟩ : ∃ simple, name.isBuiltin simple = true := by
      rcases builtin?_eq_some_cases h with ⟨p, -, hp⟩ | ⟨-, hvoid⟩
      · exact ⟨_, hp⟩
      · exact ⟨_, hvoid⟩
    rw [standard_of_builtin? h, ← h]
    refine builtin?_congr fun other => ?_
    rw [isBuiltin, isBuiltin, (isBuiltin_iff.1 hbuiltin).2]
    exact congrArg (_ && ·) (Bool.or_true _)

/-! ## Array layers -/

theorem arrayLayers_element (name : QualifiedName) : name.element.arrayLayers = 0 := by
  induction name using element.induct with
  | case1 ns simple m harray ih => rw [element, if_pos harray]; exact ih
  | case2 ns simple m harray => rw [element, if_neg harray, arrayLayers, if_neg harray]
  | case3 name hlayers => rw [element.eq_2 _ hlayers, arrayLayers.eq_2 _ hlayers]

theorem arrayLayers_standard (h : name.arrayLayers = 0) : name.standard.arrayLayers = 0 := by
  cases hbuiltin : name.builtin? with
  | none => rw [standard_of_builtin?_eq_none hbuiltin, h]
  | some t => rw [standard_of_builtin? hbuiltin]; rfl

theorem canonical_eq_iterate (name : QualifiedName) :
    name.canonical = arrayOf^[name.arrayLayers] name.element.standard := by
  induction name using element.induct with
  | case1 ns simple m harray ih =>
    rw [canonical, if_pos harray, arrayLayers, if_pos harray, element, if_pos harray, ih,
      Function.iterate_succ_apply']
  | case2 ns simple m harray =>
    rw [canonical, if_neg harray, arrayLayers, if_neg harray, element, if_neg harray]
    rfl
  | case3 name hlayers =>
    rw [canonical.eq_2 _ hlayers, arrayLayers.eq_2 _ hlayers, element.eq_2 _ hlayers]
    rfl

theorem element_iterate_arrayOf (n : Nat) (name : QualifiedName) : (arrayOf^[n] name).element = name.element := by
  induction n with
  | zero => rfl
  | succ n ih => rw [Function.iterate_succ_apply']; exact ih

theorem arrayLayers_iterate_arrayOf (n : Nat) (name : QualifiedName) :
    (arrayOf^[n] name).arrayLayers = name.arrayLayers + n := by
  induction n with
  | zero => rfl
  | succ n ih => rw [Function.iterate_succ_apply']; exact congrArg (· + 1) ih

theorem element_canonical (name : QualifiedName) : name.canonical.element = name.element.standard := by
  rw [canonical_eq_iterate, element_iterate_arrayOf, element_eq_self (arrayLayers_standard (arrayLayers_element name))]

theorem arrayLayers_canonical (name : QualifiedName) : name.canonical.arrayLayers = name.arrayLayers := by
  rw [canonical_eq_iterate, arrayLayers_iterate_arrayOf, arrayLayers_standard (arrayLayers_element name), Nat.zero_add]

end QualifiedName

namespace Registry

variable {r : Registry} {name : QualifiedName}

theorem meaning?_standard (r : Registry) (name : QualifiedName) : r.meaning? name.standard = r.meaning? name := by
  cases h : name.builtin? with
  | none => rw [QualifiedName.standard_of_builtin?_eq_none h]
  | some t => rw [meaning?_eq, meaning?_eq, QualifiedName.builtin?_standard, h, Option.some_or, Option.some_or]

theorem nameOf_of_builtin? {t : TypeRef} (h : name.builtin? = some t) : r.nameOf t = name.standard := by
  rw [QualifiedName.standard_of_builtin? h]
  rcases QualifiedName.builtin?_eq_some_cases h with ⟨p, rfl, hp⟩ | ⟨rfl, hvoid⟩
  · rw [(QualifiedName.isBuiltin_iff.1 hp).1]
    rfl
  · rw [(QualifiedName.isBuiltin_iff.1 hvoid).1]
    rfl

theorem nameOf_of_meaning? {t : TypeRef} (h : r.meaning? name = some t) : r.nameOf t = name.standard := by
  rcases meaning?_eq_some_iff.1 h with hbuiltin | ⟨hbuiltin, ⟨id, hid, rfl⟩ | ⟨-, -, rfl⟩⟩
  · exact nameOf_of_builtin? hbuiltin
  · obtain ⟨x, hx, rfl⟩ := exists_of_idOf? hid
    rw [nameOf_user hx, QualifiedName.standard_of_builtin?_eq_none hbuiltin]
  · exact (QualifiedName.standard_of_builtin?_eq_none hbuiltin).symm

theorem nameOf_array_iterate (r : Registry) (n : Nat) (t : TypeRef) :
    r.nameOf (TypeRef.array^[n] t) = QualifiedName.arrayOf^[n] (r.nameOf t) := by
  induction n with
  | zero => rfl
  | succ n ih => rw [Function.iterate_succ_apply', Function.iterate_succ_apply', ← ih]; rfl

/-- A name resolves to a reference that is called by the canonical spelling of the name. That name
resolves to the same reference, wherever it is used, and adds nothing to the registry. -/
theorem resolve_nameOf (r : Registry) (origin : Span) (name : QualifiedName) :
    let (t, after) := r.resolve origin name
    after.nameOf t = name.canonical ∧ ∀ origin', after.resolve origin' (after.nameOf t) = (t, after) := by
  obtain ⟨t, hresolve, hmeaning⟩ := exists_meaning_of_resolve r origin name
  have hname : (r.resolve origin name).2.nameOf (r.resolve origin name).1 = name.canonical := by
    rw [hresolve, nameOf_array_iterate, nameOf_of_meaning? hmeaning, QualifiedName.canonical_eq_iterate]
  refine ⟨hname, fun origin' => ?_⟩
  have hagain : (r.resolve origin name).2.meaning? name.canonical.element = some t := by
    rw [QualifiedName.element_canonical, meaning?_standard, hmeaning]
  rw [hname, resolve_eq_of_known hagain, QualifiedName.arrayLayers_canonical, ← hresolve]

/-- An array of arrays of a built-in, written with parameters of its own and without namespaces. -/
example :
    let shade : QualifiedName := .ofParts "paint" "Shade"
    let list (member : QualifiedName) : QualifiedName := ⟨"", "Array", [member]⟩
    let (t, after) := ({} : Registry).resolve .unknown (list (list ⟨"", "Int", [shade]⟩))
    (after.nameOf t).display = "lang.taxi.Array<lang.taxi.Array<lang.taxi.Int>>" := by
  decide

end Registry

end SemanticSchema
