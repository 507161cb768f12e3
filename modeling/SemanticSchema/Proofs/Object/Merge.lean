import SemanticSchema.Proofs.Object.Extensions

/-!
# One more extension

The fields of an object type are put together anew, from its definition and all its extensions, each
time they are read. So what an extension adds shows only between what is read before it and after it.

* `ObjectExtension.Refines` : the refinements that an extension gives to a field;
* `ObjectExtension.annotationsFor`, `ObjectType.annotationsFor` : the annotations that one extension, or
  all those of a type, give to a field;
* `ObjectType.refinement?_of_refines`, `ObjectType.refinement?_of_not_refines` : the refinement of a
  field after an extension;
* `Field.Extended`, `ObjectType.extended_mergeField` : what becomes of one field;
* `ObjectType.extend_effect` : so becomes every field with an extension that is accepted; and a name
  finds the first field that has it.
-/

set_option autoImplicit false

namespace SemanticSchema

variable {t t' : ObjectType} {e : ObjectExtension} {name : String} {r : Refinement}

/-! ## What one extension says of a field -/

namespace ObjectExtension

/-- Some entry of the extension refines the field of some name. -/
def Refines (e : ObjectExtension) (name : String) (r : Refinement) : Prop :=
  ∃ entry ∈ e.fields, entry.name = name ∧ entry.refinement = some r

/-- The annotations of all entries for the field of some name, in order. -/
def annotationsFor (e : ObjectExtension) (name : String) : List AnnotationUse :=
  (e.fields.filter (·.name == name)).flatMap (·.annotations)

theorem refinedIn_singleton (e : ObjectExtension) : refinedIn [e] = e.refinedFields := by
  rw [refinedIn_cons]
  exact List.append_nil _

theorem entriesIn_singleton (e : ObjectExtension) (name : String) :
    entriesIn [e] name = e.fields.filter (·.name == name) := by
  rw [entriesIn, List.flatMap_singleton]

theorem mem_refinedFields_of_refines (h : e.Refines name r) : name ∈ e.refinedFields := by
  obtain ⟨entry, hentry, rfl, hrefinement⟩ := h
  exact List.mem_map_of_mem (List.mem_filter.2 ⟨hentry, by rw [hrefinement]; rfl⟩)

theorem refinementIn_singleton_eq_some_iff (hnodup : e.refinedFields.Nodup) :
    refinementIn [e] name = some r ↔ e.Refines name r := by
  rw [refinementIn_eq_some_iff ((refinedIn_singleton e).symm ▸ hnodup), entriesIn_singleton]
  simp only [Refines, List.mem_filter, beq_iff_eq, and_assoc]

end ObjectExtension

namespace ObjectType

/-- The annotations that the extensions give to the field of some name, in order. -/
def annotationsFor (t : ObjectType) (name : String) : List AnnotationUse :=
  (t.fieldExtensions name).flatMap (·.annotations)

theorem annotationsFor_addExtension (t : ObjectType) (e : ObjectExtension) (name : String) :
    annotationsFor (t.addExtension e) name = t.annotationsFor name ++ e.annotationsFor name := by
  show (fieldExtensions (addExtensions t [e]) name).flatMap _ = _
  rw [fieldExtensions_addExtensions, ObjectExtension.entriesIn_singleton, List.flatMap_append]
  rfl

theorem refinement?_addExtension (t : ObjectType) (e : ObjectExtension) (name : String) :
    refinement? (t.addExtension e) name = (t.refinement? name).or (ObjectExtension.refinementIn [e] name) :=
  refinement?_addExtensions t [e] name

/-- The first refinement counts, wherever it stands. The one of an extension that is accepted comes to
count all the same, because there has been none. -/
theorem refinement?_of_refines (h : ObjectType.extend t e = .ok t') (hrefines : e.Refines name r) :
    t.refinement? name = none ∧ t'.refinement? name = some r := by
  obtain ⟨hnodup, hfresh, rfl⟩ := extend_eq_ok_iff.1 h
  have hnew := hfresh name (ObjectExtension.mem_refinedFields_of_refines hrefines)
  have hnone : t.refinement? name = none := FieldExtension.findSome?_refinement_eq_none_iff.2 hnew
  refine ⟨hnone, ?_⟩
  rw [refinement?_addExtension, hnone, Option.none_or]
  exact (ObjectExtension.refinementIn_singleton_eq_some_iff hnodup).2 hrefines

theorem refinement?_of_not_refines (h : ObjectType.extend t e = .ok t') (hrefines : ∀ r, ¬ e.Refines name r) :
    t'.refinement? name = t.refinement? name := by
  obtain ⟨hnodup, -, rfl⟩ := extend_eq_ok_iff.1 h
  have hnone : ObjectExtension.refinementIn [e] name = none :=
    Option.eq_none_iff_forall_ne_some.2 fun r hr =>
      hrefines r ((ObjectExtension.refinementIn_singleton_eq_some_iff hnodup).1 hr)
  rw [refinement?_addExtension, hnone, Option.or_none]

end ObjectType

/-! ## What becomes of a field -/

/-- What an extension makes of a field: `f` before it and `g` after it. The annotations of `f` are those
of `earlier` extensions and its `own`. -/
structure Field.Extended (e : ObjectExtension) (earlier own : List AnnotationUse) (f g : Field) : Prop where
  name : g.name = f.name
  nullable : g.nullable = f.nullable
  modifiers : g.modifiers = f.modifiers
  constraints : g.constraints = f.constraints
  doc : g.doc = f.doc
  span : g.span = f.span
  annotations_before : f.annotations = earlier ++ own
  annotations : g.annotations = earlier ++ e.annotationsFor f.name ++ own
  type_refined : ∀ r, e.Refines f.name r → g.type = r.type
  type_kept : (∀ r, ¬ e.Refines f.name r) → g.type = f.type
  default_refined : ∀ r value, e.Refines f.name r → r.default = some value → g.default = some value
  default_kept : (∀ r, e.Refines f.name r → r.default = none) → g.default = f.default

namespace ObjectType

theorem extended_mergeField (h : ObjectType.extend t e = .ok t') (f : Field) :
    Field.Extended e (t.annotationsFor f.name) f.annotations (t.mergeField f) (t'.mergeField f) := by
  rw [mergeField_eq, mergeField_eq]
  refine ⟨rfl, rfl, rfl, rfl, rfl, rfl, rfl, ?_, ?_, ?_, ?_, ?_⟩
  · obtain ⟨-, -, rfl⟩ := extend_eq_ok_iff.1 h
    exact congrArg (· ++ f.annotations) (annotationsFor_addExtension t e f.name)
  · intro r hrefines
    rw [(refinement?_of_refines h hrefines).2]
    rfl
  · intro hrefines
    rw [refinement?_of_not_refines h hrefines]
  · intro r value hrefines hvalue
    rw [(refinement?_of_refines h hrefines).2, Option.bind_some, hvalue, Option.some_or]
  · intro hdefaults
    by_cases hrefines : ∃ r, e.Refines f.name r
    · obtain ⟨r, hr⟩ := hrefines
      obtain ⟨hbefore, hafter⟩ := refinement?_of_refines h hr
      rw [hbefore, hafter, Option.bind_some, hdefaults r hr, Option.bind_none]
    · rw [refinement?_of_not_refines h (not_exists.1 hrefines)]

theorem ownField?_eq (t : ObjectType) (name : String) : t.ownField? name = (fields t).find? (·.name == name) := by
  have hname : (fun f : Field => f.name == name) ∘ t.mergeField = (·.name == name) := by
    funext f
    rw [Function.comp_apply, mergeField_eq]
  rw [fields, List.find?_map, hname]
  rfl

theorem hasOwnField_eq (t : ObjectType) (name : String) : t.hasOwnField name = (t.ownField? name).isSome := by
  rw [hasOwnField, ownField?, Option.isSome_map, List.isSome_find?]

/-- With an extension that is accepted the fields stay the same in the same order, but that each is
extended; it is not asked that the extensions before refine no field twice. And whatever the extensions,
a name finds the first of the fields that has it. -/
theorem extend_effect (t : ObjectType) (e : ObjectExtension) :
    (∀ t', ObjectType.extend t e = .ok t' →
      (fields t').length = (fields t).length ∧
      ∀ (i : Nat) (f : Field), (fields t)[i]? = some f →
        ∃ declared g, (declaredFields t)[i]? = some declared ∧ declared.name = f.name ∧
          (fields t')[i]? = some g ∧ Field.Extended e (t.annotationsFor f.name) declared.annotations f g) ∧
    ∀ name, t.ownField? name = (fields t).find? (·.name == name) ∧
      t.hasOwnField name = ((fields t).find? (·.name == name)).isSome := by
  constructor
  · intro t' h
    have hdeclared : declaredFields t' = declaredFields t := by
      obtain ⟨-, -, rfl⟩ := extend_eq_ok_iff.1 h
      rfl
    refine ⟨by rw [fields, fields, List.length_map, List.length_map, hdeclared], ?_⟩
    intro i f hf
    rw [fields, List.getElem?_map] at hf
    obtain ⟨declared, hi, rfl⟩ := Option.map_eq_some_iff.1 hf
    have hname : (t.mergeField declared).name = declared.name := by rw [mergeField_eq]
    refine ⟨declared, t'.mergeField declared, hi, hname.symm, ?_, ?_⟩
    · rw [fields, List.getElem?_map, hdeclared, hi, Option.map_some]
    · rw [hname]
      exact extended_mergeField h declared
  · intro name
    rw [hasOwnField_eq, ownField?_eq]
    exact ⟨rfl, rfl⟩

/-- A field that an earlier extension annotates, and that two entries of the next one annotate. The
second of them refines it. -/
theorem extend_effect_shade :
    let use (name : String) : AnnotationUse := { name := .ofParts "paint" name }
    let shade : Field := { name := "shade", type := .primitive .string, annotations := [use "Own"] }
    let dark : ObjectExtension := { fields := [{ name := "shade", annotations := [use "Dark"] }] }
    let narrower : Refinement := ⟨.primitive .int, some (.int 1)⟩
    let light : ObjectExtension :=
      { fields := [{ name := "shade", annotations := [use "Light"] },
          { name := "shade", annotations := [use "Pale"], refinement := some narrower }] }
    let t : ObjectType := .addExtension (.defined (.ofParts "paint" "Colour") { fields := [shade] }) dark
    ∃ t' f g, ObjectType.extend t light = .ok t' ∧ fields t = [f] ∧ fields t' = [g] ∧
      Field.Extended light [use "Dark"] [use "Own"] f g ∧ light.Refines "shade" narrower ∧
      g.annotations = [use "Dark", use "Light", use "Pale", use "Own"] ∧
      g.type = .primitive .int ∧ g.default = some (.int 1) ∧ t'.ownField? "shade" = some g := by
  intro use shade dark narrower light t
  have hrefines : light.Refines "shade" narrower := ⟨_, List.mem_cons_of_mem _ List.mem_cons_self, rfl, rfl⟩
  obtain ⟨-, hfields⟩ := (extend_effect t light).1 _ rfl
  obtain ⟨declared, g, hdeclared, -, hg, hextended⟩ := hfields 0 _ rfl
  obtain rfl := Option.some.inj hdeclared
  obtain rfl := Option.some.inj hg
  exact ⟨_, _, _, rfl, rfl, rfl, hextended, hrefines, hextended.annotations, hextended.type_refined _ hrefines,
    hextended.default_refined _ _ hrefines rfl, rfl⟩

end ObjectType

end SemanticSchema
