import SemanticSchema.Proofs.Registry.Refusal

/-!
# What every record satisfies

An undefined type is an object type, since only references and object extensions record a name
without its definition. That is why a definition of another kind finds nothing to lose, and why an
enum with extensions is always defined. So the extensions of a type stay fit for it: no field is
refined twice, and no extension of an enum names a member that the enum lacks.

* `TypeBody.Coherent` : the three properties of one type, each of which needs the others;
* `TypeBody.Coherent.filled`, `TypeBody.Coherent.extended` : a definition keeps them, and so does an
  extension that is accepted;
* `Registry.Coherent` : every record has them. Every change keeps this (`Registry.Coherent.change`);
* `Registry.record_invariant` : so every record has them after any run.
-/

set_option autoImplicit false

namespace SemanticSchema

/-! ## Extensions that fit -/

/-- The entries that refine a field are as many as the times it is listed as refined. -/
theorem FieldExtension.length_refinements (es : List FieldExtension) (field : String) :
    ((es.filter (·.name == field)).filter (·.refinement.isSome)).length = (refinedNames es).count field := by
  rw [refinedNames, List.count, List.countP_map, List.countP_filter, List.countP_eq_length_filter,
    List.filter_filter]
  simp only [Bool.and_comm, Function.comp_apply]

theorem ObjectType.length_refinements (t : ObjectType) (field : String) :
    ((t.fieldExtensions field).filter (·.refinement.isSome)).length = t.refinedFields.count field :=
  FieldExtension.length_refinements _ field

theorem ObjectType.refinedFields_addExtension (t : ObjectType) (e : ObjectExtension) :
    ObjectType.refinedFields (t.addExtension e) = t.refinedFields ++ e.refinedFields := by
  simp only [refinedFields, ObjectExtension.refinedFields, Declared.addExtension, List.flatMap_append,
    FieldExtension.refinedNames_append, List.flatMap_cons, List.flatMap_nil, List.append_nil]

theorem ObjectType.nodup_refinedFields_of_extend {t t' : ObjectType} {e : ObjectExtension}
    (h : ObjectType.extend t e = .ok t') (ht : t.refinedFields.Nodup) : t'.refinedFields.Nodup := by
  obtain ⟨hnodup, hfresh, rfl⟩ := ObjectType.extend_eq_ok_iff.1 h
  rw [ObjectType.refinedFields_addExtension]
  refine List.nodup_append.2 ⟨ht, hnodup, ?_⟩
  rintro a ha b hb rfl
  exact hfresh a hb ha

/-- The names that the extensions of an enum give to members. -/
def EnumType.extendedMembers (t : EnumType) : List String :=
  (t.extensions.flatMap (·.members)).map (·.name)

theorem EnumType.extendedMembers_of_extend {t t' : EnumType} {e : EnumExtension}
    (h : EnumType.extend t e = .ok t') :
    ∃ d, t'.definition = some d ∧
      ∀ name ∈ t'.extendedMembers, name ∈ t.extendedMembers ∨ name ∈ d.members.map (·.name) := by
  have hadded := EnumType.addExtension_of_extend h
  unfold EnumType.extend at h
  split at h
  · cases h
  · next d hd =>
    split at h
    · next hknown =>
      refine ⟨d, by rw [hadded]; exact hd, fun name hname => ?_⟩
      have hmem : name ∈ t.extendedMembers ∨ name ∈ e.members.map (·.name) := by
        simpa [hadded, extendedMembers, Declared.addExtension, or_and_right, exists_or] using hname
      refine hmem.imp_right fun hmem => ?_
      obtain ⟨x, hx, rfl⟩ := List.mem_map.1 hmem
      have hany : d.members.any (·.name == x.name) = true := by
        simpa using List.filter_eq_nil_iff.1 hknown x hx
      obtain ⟨m, hm, hname⟩ := List.any_eq_true.1 hany
      exact List.mem_map.2 ⟨m, hm, by simpa using hname⟩
    · cases h

/-! ## One type -/

/-- What a type satisfies at any time. -/
structure TypeBody.Coherent (body : TypeBody) : Prop where
  kind : body.isDefined = false → body.kind = .object
  refined : ∀ t, body = .object t → t.refinedFields.Nodup
  members : ∀ t, body = .enum t → ∀ name ∈ t.extendedMembers,
    ∃ d, t.definition = some d ∧ name ∈ d.members.map (·.name)

namespace TypeBody

theorem coherent_undefined (name : QualifiedName) : Coherent (.object (.undefined name)) where
  kind _ := rfl
  refined := by rintro t ⟨⟩; exact List.nodup_nil
  members := nofun

theorem coherent_toBody (name : QualifiedName) (d : TypeDefinition) : (d.toBody name).Coherent where
  kind hundefined := by rw [TypeDefinition.isDefined_toBody] at hundefined; cases hundefined
  refined t ht := by cases d <;> cases ht; exact List.nodup_nil
  members t ht := by cases d <;> cases ht; exact fun name hname => (List.not_mem_nil hname).elim

variable {body body' : TypeBody}

theorem eq_object_of_kind (h : body.kind = .object) : ∃ t, body = .object t := by
  cases body with
  | object t => exact ⟨t, rfl⟩
  | enum t => cases h
  | typeAlias t => cases h
  | annotationType t => cases h

/-- What is defined was an object type before. It either still is one, with the same extensions, or
there were none. -/
theorem Coherent.filled {d : TypeDefinition} (h : body.Coherent) (hfilled : body.Filled d body') :
    body'.Coherent where
  kind hundefined := by
    rw [isDefined_eq, hfilled.definition] at hundefined
    cases hundefined
  refined := by
    rintro t' rfl
    obtain ⟨t, rfl⟩ := eq_object_of_kind (h.kind hfilled.undefined)
    have hextensions : t'.extensions = t.extensions :=
      List.map_injective_iff.2 (fun _ _ => TypeExtension.object.inj) hfilled.extensions
    have hrefined := h.refined t rfl
    rwa [ObjectType.refinedFields, ← hextensions] at hrefined
  members := by
    rintro t' rfl name hname
    have hkind : (TypeBody.enum t').kind ≠ body.kind := by rw [h.kind hfilled.undefined]; nofun
    have hnone : t'.extensions = [] := by
      have hextensions := hfilled.extensions
      rw [hfilled.kind hkind] at hextensions
      exact List.map_eq_nil_iff.1 hextensions
    rw [EnumType.extendedMembers, hnone] at hname
    cases hname

theorem Coherent.extended {e : TypeExtension} (h : body.Coherent) (hextend : body.extend e = .ok body') :
    body'.Coherent := by
  have hextended := extended_of_extend hextend
  refine ⟨fun hundefined => ?_, ?_, ?_⟩
  · rw [isDefined_eq, hextended.definition, ← isDefined_eq] at hundefined
    rw [hextended.kind]
    exact h.kind hundefined
  · rintro t' rfl
    obtain ⟨t, x, _, rfl, -, ht, ⟨⟩⟩ | ⟨_, _, _, _, _, _, ⟨⟩⟩ | ⟨_, _, _, _, ⟨⟩⟩ := extend_ok_cases hextend
    exact ObjectType.nodup_refinedFields_of_extend ht (h.refined t rfl)
  · rintro t' rfl
    obtain ⟨_, _, _, _, _, _, ⟨⟩⟩ | ⟨t, x, _, rfl, -, ht, ⟨⟩⟩ | ⟨_, _, _, _, ⟨⟩⟩ := extend_ok_cases hextend
    obtain ⟨d, hd, hknown⟩ := EnumType.extendedMembers_of_extend ht
    intro name hname
    refine ⟨d, hd, (hknown name hname).elim (fun hold => ?_) id⟩
    -- An older extension was checked against the definition that is still there.
    obtain ⟨d', hd', hmember⟩ := h.members t rfl name hold
    rw [EnumType.addExtension_of_extend ht] at hd
    obtain rfl : d' = d := Option.some.inj (hd'.symm.trans hd)
    exact hmember

end TypeBody

/-! ## Every record -/

namespace Registry

variable {r r' : Registry} {id : TypeId} {x : Record}

def Coherent (r : Registry) : Prop := ∀ id x, r.get? id = some x → x.body.Coherent

theorem coherent_empty : Coherent {} := nofun

theorem Coherent.push {body : TypeBody} (h : r.Coherent) (hbody : body.Coherent) (origin : Span) :
    (r.push body origin).2.Coherent := by
  intro j y hy
  rw [get?_push] at hy
  split at hy
  · cases hy; exact hbody
  · exact h j y hy

theorem Coherent.setBody {body : TypeBody} (h : r.Coherent) (hbody : body.Coherent) :
    (r.setBody id body).Coherent := by
  intro j y hy
  rw [get?_setBody] at hy
  split at hy
  · obtain ⟨_, _, rfl⟩ := Option.map_eq_some_iff.1 hy
    exact hbody
  · exact h j y hy

theorem Coherent.change (h : r.Coherent) (hchange : r.Change r') : r'.Coherent := by
  cases hchange with
  | imported names => exact h
  | @named name origin hnew => exact h.push (TypeBody.coherent_undefined name) origin
  | @defined name d hnew => exact h.push (TypeBody.coherent_toBody name d) d.span
  | filled hx hfill => exact h.setBody ((h _ _ hx).filled (filled_of_fill hfill))
  | extended hx hextend => exact h.setBody ((h _ _ hx).extended hextend)

theorem Reachable.coherent (h : r.Reachable) : r.Coherent := by
  obtain ⟨events, rfl⟩ := h
  exact run_invariant (fun _ _ hchange h => h.change hchange) coherent_empty events

/-- Whatever is done to an empty registry, every undefined record is of an object type, every field
of an object type is refined by at most one entry of all its extensions, and every entry of an
extension of an enum names a member of the enum's definition. -/
theorem record_invariant (h : r.Reachable) (hx : r.get? id = some x) :
    (x.isDefined = false → x.body.kind = .object) ∧
    (∀ t, x.body = .object t →
      ∀ field, ((t.fieldExtensions field).filter (·.refinement.isSome)).length ≤ 1) ∧
    (∀ t, x.body = .enum t → ∀ e ∈ t.extensions, ∀ entry ∈ e.members,
      ∃ d, t.definition = some d ∧ ∃ m ∈ d.members, m.name = entry.name) := by
  have hcoherent := h.coherent id x hx
  refine ⟨hcoherent.kind, fun t ht field => ?_, fun t ht e he entry hentry => ?_⟩
  · rw [ObjectType.length_refinements]
    exact List.nodup_iff_count_le_one.1 (hcoherent.refined t ht) field
  · have hmem : entry.name ∈ t.extendedMembers :=
      List.mem_map_of_mem (List.mem_flatMap.2 ⟨e, he, hentry⟩)
    obtain ⟨d, hd, hmember⟩ := hcoherent.members t ht entry.name hmem
    exact ⟨d, hd, List.mem_map.1 hmember⟩

/-- A type that is extended before it is declared: one field is refined, its second refinement is
refused, and the type cannot become an enum any more. -/
theorem record_invariant_shade :
    let name := QualifiedName.ofParts "paint" "Colour"
    let refines (p : Primitive) : ObjectExtension :=
      { fields := [{ name := "shade", refinement := some ⟨.primitive p, none⟩ }] }
    let r := ({} : Registry).run [.extend name (.object (refines .int)),
      .extend name (.object (refines .string)), .register name (.enum { members := [] })]
    ∃ x t, r.get? ⟨0⟩ = some x ∧ x.isDefined = false ∧ x.body.kind = .object ∧ x.body = .object t ∧
      ((t.fieldExtensions "shade").filter (·.refinement.isSome)).length = 1 := by
  intro name refines r
  let t : ObjectType := ⟨name, none, [refines .int]⟩
  have hx : r.get? ⟨0⟩ = some ⟨.object t, .unknown⟩ := rfl
  obtain ⟨hkind, hrefined, -⟩ := record_invariant ⟨_, rfl⟩ hx
  refine ⟨_, t, hx, rfl, hkind rfl, rfl, Nat.le_antisymm (hrefined t rfl "shade") ?_⟩
  decide

end Registry

end SemanticSchema
