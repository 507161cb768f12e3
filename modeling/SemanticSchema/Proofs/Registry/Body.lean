import SemanticSchema.Registry.Extend

/-!
# What may happen to a type

A type is read here without regard to its kind: a definition that may be missing, and extensions in
order. Only two operations write a type, and each writes one of the two halves.

* `TypeBody.definition?`, `TypeBody.extensions` : the two halves;
* `TypeBody.Filled`, `Registry.filled_of_fill` : a definition goes into a type that has none;
* `TypeBody.extend_ok_cases` : what an extension that is accepted was given to;
* `TypeBody.problem_of_extend` : what one that is refused is reported as;
* `TypeBody.Extended`, `TypeBody.extended_of_extend` : an extension goes behind the others.
-/

set_option autoImplicit false

namespace SemanticSchema

namespace TypeBody

/-- The definition of the type. -/
def definition? : TypeBody → Option TypeDefinition
  | object t => t.definition.map .object
  | enum t => t.definition.map .enum
  | typeAlias t => t.definition.map .typeAlias
  | annotationType t => t.definition.map .annotationType

/-- The extensions made to the type, in order. -/
def extensions : TypeBody → List TypeExtension
  | object t => t.extensions.map .object
  | enum t => t.extensions.map .enum
  | typeAlias t => t.extensions.map .typeAlias
  | annotationType _ => []

theorem isDefined_eq (body : TypeBody) : body.isDefined = body.definition?.isSome := by
  cases body <;> simp [isDefined, definition?, Declared.isDefined]

theorem kind_of_definition? {body : TypeBody} {d : TypeDefinition} (h : body.definition? = some d) :
    body.kind = d.kind := by
  cases body <;> obtain ⟨_, -, rfl⟩ := Option.map_eq_some_iff.1 h <;> rfl

/-- `body'` is `body` with the definition that it lacked. -/
structure Filled (body : TypeBody) (d : TypeDefinition) (body' : TypeBody) : Prop where
  undefined : body.isDefined = false
  name : body'.name = body.name
  definition : body'.definition? = some d
  extensions : body'.extensions = body.extensions
  kind : body'.kind ≠ body.kind → body.extensions = []

/-- `body'` is `body` with one more extension. -/
structure Extended (body : TypeBody) (e : TypeExtension) (body' : TypeBody) : Prop where
  name : body'.name = body.name
  kind : body'.kind = body.kind
  definition : body'.definition? = body.definition?
  extensions : body'.extensions = body.extensions ++ [e]

end TypeBody

namespace TypeDefinition

variable (name : QualifiedName) (d : TypeDefinition)

@[simp] theorem name_toBody : (d.toBody name).name = name := by cases d <;> rfl

@[simp] theorem kind_toBody : (d.toBody name).kind = d.kind := by cases d <;> rfl

@[simp] theorem definition?_toBody : (d.toBody name).definition? = some d := by cases d <;> rfl

@[simp] theorem extensions_toBody : (d.toBody name).extensions = [] := by cases d <;> rfl

@[simp] theorem isDefined_toBody : (d.toBody name).isDefined = true := by cases d <;> rfl

end TypeDefinition

/-! ## Definitions -/

/-- What filling does to a type, on each of its paths: the same kind on both sides, or an object type
without extensions that turns out to be of another kind. -/
theorem Registry.filled_of_fill {body body' : TypeBody} {d : TypeDefinition}
    (h : Registry.fill body d = .ok body') : body.Filled d body' := by
  unfold Registry.fill at h
  split at h
  · cases h
  · next hundefined =>
    have hundefined : body.isDefined = false := Bool.eq_false_iff.2 hundefined
    split at h
    · cases h; exact ⟨hundefined, rfl, rfl, rfl, fun hne => absurd rfl hne⟩
    · cases h; exact ⟨hundefined, rfl, rfl, rfl, fun hne => absurd rfl hne⟩
    · cases h; exact ⟨hundefined, rfl, rfl, rfl, fun hne => absurd rfl hne⟩
    · cases h; exact ⟨hundefined, rfl, rfl, rfl, fun hne => absurd rfl hne⟩
    · cases h
      exact ⟨hundefined, TypeDefinition.name_toBody .., TypeDefinition.definition?_toBody ..,
        TypeDefinition.extensions_toBody .., fun _ => rfl⟩
    · cases h

/-! ## Extensions -/

theorem ObjectType.addExtension_of_extend {t t' : ObjectType} {e : ObjectExtension}
    (h : ObjectType.extend t e = .ok t') : t' = t.addExtension e := by
  unfold ObjectType.extend at h
  split at h
  · cases h
  · exact (Except.ok.inj h).symm

theorem EnumType.addExtension_of_extend {t t' : EnumType} {e : EnumExtension}
    (h : EnumType.extend t e = .ok t') : t' = t.addExtension e := by
  unfold EnumType.extend at h
  split at h
  · cases h
  · split at h
    · exact (Except.ok.inj h).symm
    · cases h

/-- An extension is accepted by a type of its own kind only. -/
theorem TypeBody.extend_ok_cases {body body' : TypeBody} {e : TypeExtension} (h : body.extend e = .ok body') :
    (∃ t x t', body = .object t ∧ e = .object x ∧ ObjectType.extend t x = .ok t' ∧ body' = .object t') ∨
    (∃ t x t', body = .enum t ∧ e = .enum x ∧ EnumType.extend t x = .ok t' ∧ body' = .enum t') ∨
    ∃ t x, body = .typeAlias t ∧ e = .typeAlias x ∧ body' = .typeAlias (t.addExtension x) := by
  unfold TypeBody.extend at h
  split at h
  · next t x =>
    cases ht : ObjectType.extend t x with
    | error refusal => rw [ht] at h; cases h
    | ok t' => rw [ht] at h; cases h; exact Or.inl ⟨t, x, t', rfl, rfl, ht, rfl⟩
  · next t x =>
    cases ht : EnumType.extend t x with
    | error refusal => rw [ht] at h; cases h
    | ok t' => rw [ht] at h; cases h; exact Or.inr (Or.inl ⟨t, x, t', rfl, rfl, ht, rfl⟩)
  · next t x => cases h; exact Or.inr (Or.inr ⟨t, x, rfl, rfl, rfl⟩)
  · cases h
  · cases h

/-- What one type refuses conflicts with an earlier extension, or does not fit the type. -/
theorem TypeBody.problem_of_extend {body : TypeBody} {e : TypeExtension} {refusal : ExtensionError}
    (h : body.extend e = .error refusal) :
    refusal.problem = .refinementConflict ∨ refusal.problem = .invalidExtension := by
  unfold TypeBody.extend at h
  split at h
  · next t x =>
    cases ht : ObjectType.extend t x with
    | error conflict => rw [ht] at h; cases h; exact Or.inl rfl
    | ok t' => rw [ht] at h; cases h
  · next t x =>
    cases ht : EnumType.extend t x with
    | error reason => rw [ht] at h; cases h; exact Or.inr rfl
    | ok t' => rw [ht] at h; cases h
  · cases h
  · cases h; exact Or.inr rfl
  · cases h; exact Or.inr rfl

/-- Every accepted extension is put behind the others, whatever the kind. -/
theorem TypeBody.extended_of_extend {body body' : TypeBody} {e : TypeExtension}
    (h : body.extend e = .ok body') : body.Extended e body' := by
  obtain ⟨t, x, t', rfl, rfl, ht, rfl⟩ | ⟨t, x, t', rfl, rfl, ht, rfl⟩ | ⟨t, x, rfl, rfl, rfl⟩ := extend_ok_cases h
  · rw [ObjectType.addExtension_of_extend ht]
    exact ⟨rfl, rfl, rfl, by simp [TypeBody.extensions, Declared.addExtension]⟩
  · rw [EnumType.addExtension_of_extend ht]
    exact ⟨rfl, rfl, rfl, by simp [TypeBody.extensions, Declared.addExtension]⟩
  · exact ⟨rfl, rfl, rfl, by simp [TypeBody.extensions, Declared.addExtension]⟩

end SemanticSchema
