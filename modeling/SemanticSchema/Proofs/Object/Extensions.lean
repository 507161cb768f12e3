import SemanticSchema.Proofs.Registry.Records

/-!
# Extensions in any order

The extensions of an object type are taken one after another, and each is checked against those before
it. All that is checked is that no field is refined twice, so the order decides nothing but the order of
the annotations.

* `ObjectType.extendAll` : some extensions, one after another;
* `ObjectType.extendAll_eq_ok_iff` : they are accepted exactly when they refine no field twice, and none
  that has been refined;
* `ObjectExtension.refinementIn_eq_some_iff`, `ObjectExtension.refinementIn_perm` : so it makes no
  difference which entry refines a field, and in which order they come;
* `Field.Reordered`, `ObjectType.extendAll_perm` : what becomes of the fields in another order.
-/

set_option autoImplicit false

namespace SemanticSchema

variable {t t' : ObjectType} {e : ObjectExtension} {es es' : List ObjectExtension} {name : String}

/-- What is in a list of one entry at most comes first in it. -/
theorem head?_eq_some_iff_mem {α : Type} {xs : List α} {x : α} (hone : xs.length ≤ 1) :
    xs.head? = some x ↔ x ∈ xs := by
  match xs with
  | [] => simp
  | [y] => simp [eq_comm]
  | _ :: _ :: _ => simp at hone

/-! ## What some extensions say of a field -/

namespace ObjectExtension

/-- The fields that some extensions refine, in order. -/
def refinedIn (es : List ObjectExtension) : List String := FieldExtension.refinedNames (es.flatMap (·.fields))

/-- What some extensions add to the field of some name, in order. -/
def entriesIn (es : List ObjectExtension) (name : String) : List FieldExtension :=
  (es.flatMap (·.fields)).filter (·.name == name)

/-- The refinement that some extensions give to the field of some name. -/
def refinementIn (es : List ObjectExtension) (name : String) : Option Refinement :=
  (entriesIn es name).findSome? (·.refinement)

theorem refinedIn_cons (e : ObjectExtension) (es : List ObjectExtension) :
    refinedIn (e :: es) = e.refinedFields ++ refinedIn es := by
  rw [refinedIn, List.flatMap_cons, FieldExtension.refinedNames_append]
  rfl

theorem refinedIn_perm (h : es.Perm es') : (refinedIn es).Perm (refinedIn es') :=
  ((h.flatMap_right _).filter _).map _

theorem entriesIn_perm (h : es.Perm es') (name : String) : (entriesIn es name).Perm (entriesIn es' name) :=
  (h.flatMap_right _).filter _

/-- Among extensions that refine no field twice it makes no difference which entry refines a field. -/
theorem refinementIn_eq_some_iff (hnodup : (refinedIn es).Nodup) {r : Refinement} :
    refinementIn es name = some r ↔ ∃ entry ∈ entriesIn es name, entry.refinement = some r := by
  have hone : ((entriesIn es name).filterMap (·.refinement)).length ≤ 1 := by
    rw [List.length_filterMap_eq_countP, List.countP_eq_length_filter, entriesIn,
      FieldExtension.length_refinements]
    exact List.nodup_iff_count_le_one.1 hnodup name
  rw [refinementIn, ← List.head?_filterMap, head?_eq_some_iff_mem hone, List.mem_filterMap]

/-- A field that is refined once has the same refinement in any order. -/
theorem refinementIn_perm (hnodup : (refinedIn es).Nodup) (h : es.Perm es') (name : String) :
    refinementIn es name = refinementIn es' name := by
  have hnodup' : (refinedIn es').Nodup := (refinedIn_perm h).nodup_iff.1 hnodup
  ext r
  rw [refinementIn_eq_some_iff hnodup, refinementIn_eq_some_iff hnodup']
  simp only [(entriesIn_perm h name).mem_iff]

end ObjectExtension

namespace ObjectType

/-! ## One after another -/

/-- Adds some extensions, one after another, unless one of them refines a field a second time. -/
def extendAll (t : ObjectType) (es : List ObjectExtension) : Except RefinementConflict ObjectType :=
  es.foldlM ObjectType.extend t

/-- A type with some more extensions. -/
def addExtensions (t : ObjectType) (es : List ObjectExtension) : ObjectType :=
  { t with extensions := t.extensions ++ es }

theorem addExtensions_cons (t : ObjectType) (e : ObjectExtension) (es : List ObjectExtension) :
    addExtensions t (e :: es) = addExtensions (t.addExtension e) es := by
  simp [addExtensions, Declared.addExtension]

theorem extendAll_cons_eq_ok_iff :
    extendAll t (e :: es) = .ok t' ↔ ∃ t₁, ObjectType.extend t e = .ok t₁ ∧ extendAll t₁ es = .ok t' := by
  unfold extendAll
  rw [List.foldlM_cons]
  cases ObjectType.extend t e with
  | error conflict => exact ⟨nofun, nofun⟩
  | ok t₁ => exact ⟨fun h => ⟨t₁, rfl, h⟩, fun ⟨_, hok, h⟩ => Except.ok.inj hok ▸ h⟩

/-- Each extension is checked against those before it; together they are accepted exactly when they
refine no field twice, and none that has been refined. -/
theorem extendAll_eq_ok_iff : extendAll t es = .ok t' ↔
    (ObjectExtension.refinedIn es).Nodup ∧ (∀ n ∈ ObjectExtension.refinedIn es, n ∉ t.refinedFields) ∧
      t' = addExtensions t es := by
  induction es generalizing t with
  | nil =>
    have hsame : addExtensions t [] = t := by rw [addExtensions, List.append_nil]
    rw [hsame]
    exact ⟨fun h => ⟨List.nodup_nil, nofun, (Except.ok.inj h).symm⟩, fun h => congrArg Except.ok h.2.2.symm⟩
  | cons e es ih =>
    simp only [extendAll_cons_eq_ok_iff, ObjectType.extend_eq_ok_iff, ih, ObjectExtension.refinedIn_cons,
      addExtensions_cons, List.nodup_append, List.mem_append]
    constructor
    · rintro ⟨_, ⟨hnodup, hfresh, rfl⟩, hnodup', hfresh', rfl⟩
      simp only [refinedFields_addExtension, List.mem_append, not_or] at hfresh'
      refine ⟨⟨hnodup, hnodup', ?_⟩, ?_, rfl⟩
      · rintro n hn _ hn' rfl
        exact (hfresh' n hn').2 hn
      · rintro n (hn | hn)
        · exact hfresh n hn
        · exact (hfresh' n hn).1
    · rintro ⟨⟨hnodup, hnodup', hne⟩, hfresh, rfl⟩
      refine ⟨_, ⟨hnodup, fun n hn => hfresh n (Or.inl hn), rfl⟩, hnodup', fun n hn => ?_, rfl⟩
      rw [refinedFields_addExtension, List.mem_append, not_or]
      exact ⟨hfresh n (Or.inr hn), fun hn' => hne n hn' n hn rfl⟩

/-! ## In another order -/

theorem fieldExtensions_addExtensions (t : ObjectType) (es : List ObjectExtension) (name : String) :
    fieldExtensions (addExtensions t es) name = t.fieldExtensions name ++ ObjectExtension.entriesIn es name := by
  rw [fieldExtensions, addExtensions, List.flatMap_append, List.filter_append]
  rfl

theorem refinement?_addExtensions (t : ObjectType) (es : List ObjectExtension) (name : String) :
    refinement? (addExtensions t es) name = (t.refinement? name).or (ObjectExtension.refinementIn es name) := by
  rw [refinement?, fieldExtensions_addExtensions, List.findSome?_append]
  rfl

end ObjectType

/-- What the same extensions make of a declared field in two orders: the same field, but that the
annotations which they add before its own may be in another order. -/
structure Field.Reordered (declared f g : Field) : Prop where
  name : g.name = f.name
  type : g.type = f.type
  default : g.default = f.default
  nullable : g.nullable = f.nullable
  modifiers : g.modifiers = f.modifiers
  constraints : g.constraints = f.constraints
  doc : g.doc = f.doc
  span : g.span = f.span
  annotations : ∃ added added', f.annotations = added ++ declared.annotations ∧
    g.annotations = added' ++ declared.annotations ∧ added.Perm added'

namespace ObjectType

theorem mergeField_eq (t : ObjectType) (f : Field) : t.mergeField f = { f with
    type := ((t.refinement? f.name).map (·.type)).getD f.type
    default := ((t.refinement? f.name).bind (·.default)).or f.default
    annotations := (t.fieldExtensions f.name).flatMap (·.annotations) ++ f.annotations } := by
  unfold mergeField
  cases t.refinement? f.name <;> rfl

theorem mergeField_reordered (hnodup : (ObjectExtension.refinedIn es).Nodup) (hperm : es.Perm es')
    (t : ObjectType) (declared : Field) :
    declared.Reordered (mergeField (addExtensions t es) declared) (mergeField (addExtensions t es') declared) := by
  rw [mergeField_eq, mergeField_eq, refinement?_addExtensions, refinement?_addExtensions,
    ObjectExtension.refinementIn_perm hnodup hperm, fieldExtensions_addExtensions, fieldExtensions_addExtensions]
  refine ⟨rfl, rfl, rfl, rfl, rfl, rfl, rfl, rfl, _, _, rfl, rfl, ?_⟩
  exact ((ObjectExtension.entriesIn_perm hperm _).append_left _).flatMap_right _

/-- Extensions that are accepted one after another are accepted in any order. The fields come to the
same in both orders, one by one, except that the annotations which the extensions add may be in another
order. -/
theorem extendAll_perm (h : extendAll t es = .ok t') (hperm : es.Perm es') :
    ∃ t'', extendAll t es' = .ok t'' ∧
      (fields t').length = (declaredFields t).length ∧ (fields t'').length = (declaredFields t).length ∧
      ∀ (i : Nat) (declared f g : Field), (declaredFields t)[i]? = some declared →
        (fields t')[i]? = some f → (fields t'')[i]? = some g → declared.Reordered f g := by
  obtain ⟨hnodup, hfresh, rfl⟩ := extendAll_eq_ok_iff.1 h
  have hrefined := ObjectExtension.refinedIn_perm hperm
  refine ⟨addExtensions t es', ?_, List.length_map .., List.length_map .., ?_⟩
  · exact extendAll_eq_ok_iff.2 ⟨hrefined.nodup_iff.1 hnodup, fun n hn => hfresh n (hrefined.mem_iff.2 hn), rfl⟩
  · intro i declared f g hdeclared hf hg
    have hmerged : ∀ es, (fields (addExtensions t es))[i]? = some (mergeField (addExtensions t es) declared) := by
      intro es
      show ((declaredFields t).map _)[i]? = _
      rw [List.getElem?_map, hdeclared, Option.map_some]
    obtain rfl := Option.some.inj ((hmerged es).symm.trans hf)
    obtain rfl := Option.some.inj ((hmerged es').symm.trans hg)
    exact mergeField_reordered hnodup hperm t declared

/-- A field that is refined with a default, and annotated by two other extensions, in two orders. -/
theorem extendAll_perm_shade :
    let use (name : String) : AnnotationUse := { name := .ofParts "paint" name }
    let shade : Field := { name := "shade", type := .primitive .string, annotations := [use "Own"] }
    let refining : ObjectExtension :=
      { fields := [{ name := "shade", refinement := some ⟨.primitive .int, some (.int 1)⟩ }] }
    let annotating (name : String) : ObjectExtension := { fields := [{ name := "shade", annotations := [use name] }] }
    let t : ObjectType := .defined (.ofParts "paint" "Colour") { fields := [shade] }
    let es := [refining, annotating "Dark", annotating "Light"]
    ∃ t' t'' f g, extendAll t es = .ok t' ∧ es.Perm es.reverse ∧ extendAll t es.reverse = .ok t'' ∧
      fields t' = [f] ∧ fields t'' = [g] ∧ shade.Reordered f g ∧ f.type = .primitive .int ∧
      f.default = some (.int 1) ∧ g.annotations = [use "Light", use "Dark", use "Own"] := by
  intro use shade refining annotating t es
  have hperm : es.Perm es.reverse := es.reverse_perm.symm
  obtain ⟨t'', hok, -, -, hfields⟩ := @extendAll_perm t _ es _ rfl hperm
  obtain rfl := Except.ok.inj hok
  exact ⟨_, _, _, _, rfl, hperm, rfl, rfl, rfl, hfields 0 shade _ _ rfl rfl rfl, rfl, rfl, rfl⟩

end ObjectType

end SemanticSchema
