import SemanticSchema.Finish
import SemanticSchema.Proofs.Registry.Ends

/-!
# What the checks read of a registry

An extension adds annotations, synonyms and doc texts, and it may refine fields. Of all this the checks
read the refinements only: they say the same of a registry that has nothing else left of its extensions.

* `Registry.bare` : the registry without the annotations of fields, and with no extension but one for
  each object type, which holds the refinements;
* `Registry.supertypes_bare`, `Registry.unwrapObject?_bare`, `Registry.enumRoots_bare` : what lies above
  and behind a type is the same there;
* `Registry.allFields_bare` : so are the fields, their annotations apart;
* `Registry.inheritanceReports_bare` : so are the reports on the inheritance.
-/

set_option autoImplicit false

namespace SemanticSchema

/-! ## Without decorations -/

/-- A field without its annotations. -/
def Field.bare (f : Field) : Field := { f with annotations := [] }

namespace ObjectType

/-- The entries of the extensions that refine a field, without their annotations. -/
def refinements (t : ObjectType) : List FieldExtension :=
  ((t.extensions.flatMap (·.fields)).filter (·.refinement.isSome)).map fun e => { e with annotations := [] }

/-- An object type whose one extension holds the refinements. -/
def bare (t : ObjectType) : ObjectType where
  name := t.name
  definition := t.definition.map fun d => { d with fields := d.fields.map Field.bare }
  extensions := [{ fields := t.refinements }]

variable (t : ObjectType) (name : String)

theorem fieldExtensions_bare : fieldExtensions t.bare name = t.refinements.filter (·.name == name) := by
  simp [fieldExtensions, bare]

theorem refinement?_bare : refinement? t.bare name = t.refinement? name := by
  rw [refinement?, fieldExtensions_bare, refinements, refinement?, fieldExtensions]
  induction t.extensions.flatMap (·.fields) with
  | nil => rfl
  | cons e es ih =>
    cases hrefinement : e.refinement with
    | none => by_cases hname : e.name = name <;> simp_all
    | some refinement => by_cases hname : e.name = name <;> simp_all

theorem annotations_fieldExtensions_bare : (fieldExtensions t.bare name).flatMap (·.annotations) = [] := by
  rw [fieldExtensions_bare, List.flatMap_eq_nil_iff]
  intro e he
  obtain ⟨_, -, rfl⟩ := List.mem_map.1 (List.mem_of_mem_filter he)
  rfl

theorem mergeField_bare (f : Field) : mergeField t.bare f.bare = (t.mergeField f).bare := by
  have hannotations : (fieldExtensions t.bare f.bare.name).flatMap (·.annotations) = [] :=
    annotations_fieldExtensions_bare t f.name
  have hrefinement : refinement? t.bare f.bare.name = t.refinement? f.name := refinement?_bare t f.name
  unfold mergeField
  rw [hannotations, hrefinement]
  cases t.refinement? f.name with
  | none => rfl
  | some refinement => rfl

theorem declaredFields_bare : declaredFields t.bare = t.declaredFields.map Field.bare := by
  unfold declaredFields bare
  cases t.definition with
  | none => rfl
  | some d => rfl

theorem fields_bare : fields t.bare = t.fields.map Field.bare := by
  rw [fields, declaredFields_bare, fields, List.map_map, List.map_map]
  exact List.map_congr_left fun f _ => mergeField_bare t f

end ObjectType

/-- A type without what its extensions decorate. -/
def TypeBody.bare : TypeBody → TypeBody
  | object t => object t.bare
  | enum t => enum { t with extensions := [] }
  | typeAlias t => typeAlias { t with extensions := [] }
  | annotationType t => annotationType t

/-- A record without what the extensions of its type decorate. -/
def Record.bare (x : Record) : Record := { x with body := x.body.bare }

namespace Record

@[simp] theorem name_bare (x : Record) : x.bare.name = x.name := by
  obtain ⟨body, origin⟩ := x
  cases body <;> rfl

@[simp] theorem isDefined_bare (x : Record) : x.bare.isDefined = x.isDefined := by
  obtain ⟨body, origin⟩ := x
  cases body with
  | object t => exact Option.isSome_map
  | enum t => rfl
  | typeAlias t => rfl
  | annotationType t => rfl

end Record

namespace Registry

/-- A registry without what the extensions of its types decorate. -/
def bare (r : Registry) : Registry := { r with records := r.records.map Record.bare }

variable (r : Registry) (id : TypeId) (t : TypeRef)

theorem get?_bare : r.bare.get? id = (r.get? id).map Record.bare := by
  simp [bare, get?]

theorem object?_bare : r.bare.object? id = (r.object? id).map ObjectType.bare := by
  unfold object?
  rw [get?_bare]
  cases r.get? id with
  | none => rfl
  | some x => obtain ⟨body, origin⟩ := x; cases body <;> rfl

@[simp] theorem isEnum_bare : r.bare.isEnum id = r.isEnum id := by
  unfold isEnum enum?
  rw [get?_bare]
  cases r.get? id with
  | none => rfl
  | some x => obtain ⟨body, origin⟩ := x; cases body <;> rfl

@[simp] theorem nameOf_bare : r.bare.nameOf t = r.nameOf t := by
  induction t with
  | user id =>
    unfold nameOf
    rw [get?_bare]
    cases r.get? id with
    | none => rfl
    | some x => exact x.name_bare
  | array m ih => rw [nameOf, nameOf, ih]
  | primitive p => rfl
  | void => rfl
  | imported name => rfl

@[simp] theorem spell_bare : r.bare.spell = r.spell :=
  funext fun t => congrArg QualifiedName.display (nameOf_bare r t)

/-! ## Above a type -/

@[simp] theorem directSupertypes_bare : r.bare.directSupertypes t = r.directSupertypes t := by
  cases t with
  | user id =>
    simp only [directSupertypes, get?_bare]
    cases r.get? id with
    | none => rfl
    | some x =>
      obtain ⟨body, origin⟩ := x
      cases body with
      | object t => obtain ⟨name, definition, extensions⟩ := t; cases definition <;> rfl
      | enum t => rfl
      | typeAlias t => rfl
      | annotationType t => rfl
  | primitive p => rfl
  | void => rfl
  | array m => rfl
  | imported name => rfl

theorem walkUp_bare (seen pending : List TypeRef) : r.bare.walkUp seen pending = r.walkUp seen pending := by
  -- The two walks end for reasons of their own, but they take the same steps.
  induction seen, pending using walkUp.induct r with
  | case1 seen => rw [walkUp, walkUp]
  | case2 seen p rest hseen ih => rw [walkUp, walkUp, dif_pos hseen, dif_pos hseen, ih]
  | case3 seen p rest hseen ih =>
    rw [walkUp, walkUp, dif_neg hseen, dif_neg hseen, directSupertypes_bare, ih]

@[simp] theorem supertypes_bare : r.bare.supertypes t = r.supertypes t := by
  rw [supertypes, walkUp_bare, directSupertypes_bare, supertypes]

@[simp] theorem isAssignable_bare (sup : TypeRef) : r.bare.isAssignable t sup = r.isAssignable t sup := by
  rw [isAssignable, supertypes_bare, isAssignable]

theorem searchUp_bare (goal : TypeRef) (seen pending : List TypeRef) :
    r.bare.searchUp goal seen pending = r.searchUp goal seen pending := by
  induction seen, pending using searchUp.induct r goal with
  | case1 seen => rw [searchUp, searchUp]
  | case2 seen rest => rw [searchUp, searchUp, if_pos rfl, if_pos rfl]
  | case3 seen p rest hgoal hseen ih =>
    rw [searchUp, searchUp, if_neg hgoal, if_neg hgoal, dif_pos hseen, dif_pos hseen, ih]
  | case4 seen p rest hgoal hseen ih =>
    rw [searchUp, searchUp, if_neg hgoal, if_neg hgoal, dif_neg hseen, dif_neg hseen, directSupertypes_bare, ih]

@[simp] theorem isCyclic_bare : r.bare.isCyclic t = r.isCyclic t := by
  rw [isCyclic, searchUp_bare, directSupertypes_bare, isCyclic]

/-! ## Behind aliases and arrays -/

@[simp] theorem aliasTarget?_bare : r.bare.aliasTarget? t = r.aliasTarget? t := by
  cases t with
  | user id =>
    simp only [aliasTarget?, typeAlias?, get?_bare]
    cases r.get? id with
    | none => rfl
    | some x => obtain ⟨body, origin⟩ := x; cases body <;> rfl
  | primitive p => rfl
  | void => rfl
  | array m => rfl
  | imported name => rfl

theorem followAliases_bare (seen : List TypeId) : r.bare.followAliases seen t = r.followAliases seen t := by
  have hsame := aliasTarget?_bare r
  induction seen, t using followAliases.induct r with
  | case1 seen id htarget =>
    rw [followAliases_of_no_target seen htarget, followAliases_of_no_target seen ((hsame _).trans htarget)]
  | case2 seen id next htarget hseen =>
    rw [followAliases_of_target seen htarget, followAliases_of_target seen ((hsame _).trans htarget),
      if_pos hseen, if_pos hseen]
  | case3 seen id next htarget hseen hback =>
    rw [followAliases_of_target seen htarget, followAliases_of_target seen ((hsame _).trans htarget),
      if_neg hseen, if_neg hseen, if_pos hback, if_pos hback]
  | case4 seen id next htarget hseen hback ih =>
    rw [followAliases_of_target seen htarget, followAliases_of_target seen ((hsame _).trans htarget), ih]
  | case5 seen t hleaf => rw [followAliases.eq_2 r seen t hleaf, followAliases.eq_2 r.bare seen t hleaf]

@[simp] theorem underlying_bare : r.bare.underlying t = r.underlying t := followAliases_bare r t []

@[simp] theorem isExternal_bare : r.bare.isExternal t = r.isExternal t := by
  simp only [isExternal, underlying_bare]

@[simp] theorem unwrapRound_bare : r.bare.unwrapRound t = r.unwrapRound t := by
  rw [unwrapRound, underlying_bare, unwrapRound]

theorem unwrapFrom_bare (seen : List TypeRef) : r.bare.unwrapFrom seen t = r.unwrapFrom seen t := by
  induction seen, t using unwrapFrom.induct r with
  | case1 seen t hseen => rw [unwrapFrom, dif_pos hseen, unwrapFrom, dif_pos hseen]
  | case2 seen t hseen ih =>
    rw [unwrapFrom, dif_neg hseen, unwrapRound_bare, ih, unwrapFrom.eq_1 r seen t, dif_neg hseen]

@[simp] theorem unwrapObject?_bare : r.bare.unwrapObject? t = r.unwrapObject? t := by
  rw [unwrapObject?, unwrapObject?, unwrapFrom_bare]
  simp only [object?_bare, Option.map_map, Function.comp_def]

/-! ## Base enums -/

@[simp] theorem inheritsEnum_bare : r.bare.inheritsEnum id = r.inheritsEnum id := by
  have henum : r.bare.isEnum = r.isEnum := funext (isEnum_bare r)
  simp only [inheritsEnum, directSupertypes_bare, underlying_bare, henum]

@[simp] theorem enumRoots_bare : r.bare.enumRoots id = r.enumRoots id := by
  simp only [enumRoots, isEnum_bare, supertypes_bare, inheritsEnum_bare]

/-! ## Fields -/

theorem ownFields_bare : r.bare.ownFields id = (r.ownFields id).map Field.bare := by
  unfold ownFields
  rw [object?_bare]
  cases r.object? id with
  | none => rfl
  | some t => exact t.fields_bare

theorem inheritedFields_bare : r.bare.inheritedFields id = (r.inheritedFields id).map Field.bare := by
  have hown : r.bare.ownFields = fun id => (r.ownFields id).map Field.bare := funext (ownFields_bare r)
  rw [inheritedFields, supertypes_bare, hown, inheritedFields, List.map_flatMap]

theorem allFields_bare : r.bare.allFields id = (r.allFields id).map Field.bare := by
  rw [allFields, inheritedFields_bare, ownFields_bare, allFields, List.map_append]

theorem field?_bare (name : String) : r.bare.field? id name = (r.field? id name).map Field.bare := by
  rw [field?, allFields_bare, field?, List.find?_map]
  rfl

theorem shadowedFields_bare : r.bare.shadowedFields id = (r.shadowedFields id).map Field.bare := by
  simp only [shadowedFields, ownFields_bare, inheritedFields_bare, List.map_map, List.filter_map]
  rfl

/-! ## Reports on the inheritance -/

theorem definedSlots_bare : r.bare.definedSlots = r.definedSlots.map fun slot => (slot.1, slot.2.bare) := by
  simp only [definedSlots, slots, bare, List.zipIdx_map, List.map_map, List.filter_map, Function.comp_def,
    Record.isDefined_bare, Prod.map]
  rfl

theorem inheritanceSpan?_bare (x : Record) : inheritanceSpan? x.bare = inheritanceSpan? x := by
  obtain ⟨body, origin⟩ := x
  cases body with
  | object t => obtain ⟨name, definition, extensions⟩ := t; cases definition <;> rfl
  | enum t => rfl
  | typeAlias t => rfl
  | annotationType t => rfl

theorem inheritanceReportsOn_bare (p : Policy) (x : Record) :
    r.bare.inheritanceReportsOn p id x.bare = r.inheritanceReportsOn p id x := by
  have hseveral : ∀ span roots, r.bare.severalBasesReport x.name span roots =
      r.severalBasesReport x.name span roots := by
    intro span roots
    simp only [severalBasesReport, nameOf_bare]
  have hshadowed : ∀ severity, (r.bare.shadowedFields id).map (shadowReport severity x.name) =
      (r.shadowedFields id).map (shadowReport severity x.name) := by
    intro severity
    rw [shadowedFields_bare, List.map_map]
    rfl
  simp only [inheritanceReportsOn, inheritanceSpan?_bare, enumRoots_bare, isCyclic_bare, Record.name_bare,
    hseveral, hshadowed]

/-- The reports on the inheritance read nothing of what extensions decorate. -/
theorem inheritanceReports_bare (p : Policy) : r.bare.inheritanceReports p = r.inheritanceReports p := by
  rw [inheritanceReports, definedSlots_bare, inheritanceReports, List.flatMap_map]
  exact List.flatMap_congr fun slot _ => inheritanceReportsOn_bare r slot.1 p slot.2

end Registry

end SemanticSchema
