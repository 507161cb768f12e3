import SemanticSchema.Proofs.Registry.Run

/-!
# Extensions that are refused

A refusal should leave the registry as it was. It does, but for one path: an object extension of a
name that stands for nothing yet has its name resolved first, and the record that this adds stays
behind when the extension turns out to be unfit.

* `ObjectExtension.refinedFields` : the fields that an extension refines, in order;
* `ObjectType.conflictIn_eq_none_iff` : no conflict is found exactly when no field is refined twice;
* `Registry.extend_of_unknown` : an object extension of a name that stands for nothing yet;
* `Registry.extend_atomic_iff` : exactly when a refusal leaves the registry as it was, and what it
  leaves otherwise.
-/

set_option autoImplicit false

namespace SemanticSchema

/-! ## Conflicts -/

/-- The names of the entries that refine their field, in order. -/
def FieldExtension.refinedNames (entries : List FieldExtension) : List String :=
  (entries.filter (·.refinement.isSome)).map (·.name)

/-- The fields that an extension refines, in order. -/
def ObjectExtension.refinedFields (e : ObjectExtension) : List String :=
  FieldExtension.refinedNames e.fields

/-- The fields that the extensions of a type refine, in order. -/
def ObjectType.refinedFields (t : ObjectType) : List String :=
  FieldExtension.refinedNames (t.extensions.flatMap (·.fields))

namespace FieldExtension

theorem refinedNames_append (xs ys : List FieldExtension) :
    refinedNames (xs ++ ys) = refinedNames xs ++ refinedNames ys := by
  rw [refinedNames, List.filter_append, List.map_append]
  rfl

theorem refinedNames_cons_none {e : FieldExtension} (es : List FieldExtension) (h : e.refinement = none) :
    refinedNames (e :: es) = refinedNames es := by
  rw [refinedNames, List.filter_cons_of_neg (by simp [h])]
  rfl

theorem refinedNames_cons_some {e : FieldExtension} {r : Refinement} (es : List FieldExtension)
    (h : e.refinement = some r) : refinedNames (e :: es) = e.name :: refinedNames es := by
  rw [refinedNames, List.filter_cons_of_pos (by simp [h])]
  rfl

theorem findSome?_refinement_eq_none_iff {name : String} {es : List FieldExtension} :
    (es.filter (·.name == name)).findSome? (·.refinement) = none ↔ name ∉ refinedNames es := by
  simp only [List.findSome?_eq_none_iff, List.mem_filter, beq_iff_eq, refinedNames, List.mem_map,
    Option.isSome_iff_ne_none, not_exists, not_and, and_imp]
  constructor
  · intro h e he hsome hname
    exact hsome (h e he hname)
  · intro h e he hname
    by_contra hsome
    exact h e he hsome hname

end FieldExtension

/-- The entries of an extension are taken one after another, each against the extensions there are
and the entries before it; none conflicts exactly when no field comes to be refined twice. -/
theorem ObjectType.conflictIn_eq_none_iff (t : ObjectType) (before entries : List FieldExtension) :
    t.conflictIn before entries = none ↔ (FieldExtension.refinedNames entries).Nodup ∧
      ∀ n ∈ FieldExtension.refinedNames entries,
        n ∉ t.refinedFields ∧ n ∉ FieldExtension.refinedNames before := by
  induction entries generalizing before with
  | nil => simp [conflictIn, FieldExtension.refinedNames]
  | cons e es ih =>
    unfold conflictIn
    cases hrefinement : e.refinement with
    | none =>
      have hbefore : FieldExtension.refinedNames (before ++ [e]) = FieldExtension.refinedNames before := by
        rw [FieldExtension.refinedNames_append, FieldExtension.refinedNames_cons_none [] hrefinement]
        exact List.append_nil _
      simp only
      rw [ih, hbefore, FieldExtension.refinedNames_cons_none es hrefinement]
    | some proposed =>
      -- The entry is refused if the extensions there are or the entries before it refine its field.
      have hbefore : FieldExtension.refinedNames (before ++ [e]) =
          FieldExtension.refinedNames before ++ [e.name] := by
        rw [FieldExtension.refinedNames_append, FieldExtension.refinedNames_cons_some [] hrefinement]
        rfl
      have hnone : ((t.fieldExtensions e.name ++ before.filter (·.name == e.name)).findSome?
          (·.refinement)) = none ↔ e.name ∉ t.refinedFields ∧ e.name ∉ FieldExtension.refinedNames before := by
        rw [List.findSome?_append, Option.or_eq_none_iff, FieldExtension.findSome?_refinement_eq_none_iff]
        exact and_congr_left fun _ => FieldExtension.findSome?_refinement_eq_none_iff
      rw [FieldExtension.refinedNames_cons_some es hrefinement, List.nodup_cons, List.forall_mem_cons, ← hnone]
      simp only
      cases hexisting : (t.fieldExtensions e.name ++ before.filter (·.name == e.name)).findSome?
          (·.refinement) with
      | some existing => simp
      | none =>
        simp only
        rw [ih, hbefore]
        constructor
        · rintro ⟨hnodup, hfresh⟩
          refine ⟨⟨fun hmem => (hfresh _ hmem).2 (by simp), hnodup⟩, trivial, fun n hn => ⟨(hfresh n hn).1, ?_⟩⟩
          exact fun hmem => (hfresh n hn).2 (List.mem_append_left _ hmem)
        · rintro ⟨⟨hnot, hnodup⟩, -, hfresh⟩
          refine ⟨hnodup, fun n hn => ⟨(hfresh n hn).1, fun hmem => ?_⟩⟩
          rcases List.mem_append.1 hmem with hmem | hmem
          · exact (hfresh n hn).2 hmem
          · exact hnot (List.mem_singleton.1 hmem ▸ hn)

/-- An extension is accepted exactly when it refines no field twice, and none that has been refined. -/
theorem ObjectType.extend_eq_ok_iff {t t' : ObjectType} {e : ObjectExtension} :
    ObjectType.extend t e = .ok t' ↔
      e.refinedFields.Nodup ∧ (∀ n ∈ e.refinedFields, n ∉ t.refinedFields) ∧ t' = t.addExtension e := by
  have hconflict : t.conflictIn [] e.fields = none ↔
      e.refinedFields.Nodup ∧ ∀ n ∈ e.refinedFields, n ∉ t.refinedFields := by
    rw [t.conflictIn_eq_none_iff [] e.fields]
    exact and_congr_right fun _ =>
      forall₂_congr fun _ _ => and_iff_left (show _ ∉ FieldExtension.refinedNames [] from List.not_mem_nil)
  unfold ObjectType.extend
  rw [← and_assoc, ← hconflict]
  cases t.conflictIn [] e.fields with
  | none => exact ⟨fun h => ⟨rfl, (Except.ok.inj h).symm⟩, fun h => congrArg Except.ok h.2.symm⟩
  | some conflict => exact ⟨nofun, nofun⟩

/-- A type without extensions refuses exactly the extensions that refine a field twice. -/
theorem ObjectType.extend_undefined_eq_ok_iff (name : QualifiedName) (e : ObjectExtension) :
    (∃ t, ObjectType.extend (.undefined name) e = .ok t) ↔ e.refinedFields.Nodup := by
  simp only [ObjectType.extend_eq_ok_iff]
  constructor
  · rintro ⟨t, hnodup, -, -⟩
    exact hnodup
  · intro hnodup
    exact ⟨_, hnodup, fun _ _ => List.not_mem_nil, rfl⟩

namespace Registry

variable {r : Registry} {name : QualifiedName}

/-! ## Extensions of names that stand for nothing yet -/

/-- An array is no type of its own, so it is not extended; its element is recorded all the same. -/
theorem extend_of_unknown_array {x : ObjectExtension} (hid : r.idOf? name = none)
    (hmeaning : r.meaning? name.element = none) (hlayers : 0 < name.arrayLayers) :
    ∃ refusal, r.extend name (.object x) =
      (some refusal, (r.push (.object (.undefined name.element)) x.span).2) := by
  obtain ⟨n, hn⟩ := Nat.exists_eq_add_one_of_ne_zero (Nat.ne_of_gt hlayers)
  have hresolve := @resolve_eq_of_unknown r name x.span hmeaning
  rw [hn, Function.iterate_succ_apply'] at hresolve
  simp only [extend, extensionSlot, hid, TypeExtension.span, hresolve]
  exact ⟨_, rfl⟩

/-- The record of the name is there before the extension is looked at. -/
theorem extend_of_unknown_name {x : ObjectExtension} (hmeaning : r.meaning? name = none)
    (hlayers : name.arrayLayers = 0) :
    (x.refinedFields.Nodup → (r.extend name (.object x)).1 = none) ∧
    (¬ x.refinedFields.Nodup → ∃ refusal, r.extend name (.object x) =
      (some refusal, (r.push (.object (.undefined name)) x.span).2)) := by
  have hid := idOf?_of_meaning?_eq_none hmeaning
  have hresolve : r.resolve x.span name =
      (.user ⟨r.size⟩, (r.push (.object (.undefined name)) x.span).2) := by
    have helement := QualifiedName.element_eq_self hlayers
    rw [resolve_eq_of_unknown (by rw [helement]; exact hmeaning), hlayers, helement]
    rfl
  have hslot : (r.push (.object (.undefined name)) x.span).2.get? ⟨r.size⟩ =
      some ⟨.object (.undefined name), x.span⟩ := (get?_push ..).trans (if_pos rfl)
  have hok := ObjectType.extend_undefined_eq_ok_iff name x
  simp only [extend, extensionSlot, hid, TypeExtension.span, hresolve, extendSlot, hslot, TypeBody.extend]
  cases hextend : ObjectType.extend (.undefined name) x with
  | ok t => exact ⟨fun _ => rfl, fun hnot => absurd (hok.1 ⟨t, hextend⟩) hnot⟩
  | error conflict =>
    refine ⟨fun hnodup => ?_, fun _ => ⟨_, rfl⟩⟩
    obtain ⟨t, ht⟩ := hok.2 hnodup
    rw [hextend] at ht
    cases ht

/-- The element of the name gets its record whatever becomes of the extension, which is refused if
the name is an array, or if it refines a field twice. -/
theorem extend_of_unknown {x : ObjectExtension} (hid : r.idOf? name = none)
    (hmeaning : r.meaning? name.element = none) :
    ((r.extend name (.object x)).1 ≠ none ↔ 0 < name.arrayLayers ∨ ¬ x.refinedFields.Nodup) ∧
    ((r.extend name (.object x)).1 ≠ none →
      (r.extend name (.object x)).2 = (r.push (.object (.undefined name.element)) x.span).2) := by
  rcases Nat.eq_zero_or_pos name.arrayLayers with hlayers | hlayers
  · rw [QualifiedName.element_eq_self hlayers] at hmeaning ⊢
    obtain ⟨haccepted, hrefused⟩ := @extend_of_unknown_name r name x hmeaning hlayers
    by_cases hnodup : x.refinedFields.Nodup
    · rw [haccepted hnodup]
      refine ⟨⟨fun hne => absurd rfl hne, ?_⟩, fun hne => absurd rfl hne⟩
      rintro (hpos | hnot)
      · omega
      · exact absurd hnodup hnot
    · obtain ⟨refusal, hextend⟩ := hrefused hnodup
      rw [hextend]
      exact ⟨⟨fun _ => Or.inr hnodup, fun _ => Option.some_ne_none _⟩, fun _ => rfl⟩
  · obtain ⟨refusal, hextend⟩ := @extend_of_unknown_array r name x hid hmeaning hlayers
    rw [hextend]
    exact ⟨⟨fun _ => Or.inl hlayers, fun _ => Option.some_ne_none _⟩, fun _ => rfl⟩

/-! ## Atomicity -/

/-- A refused extension leaves the registry exactly as it was, unless it is an object extension of a
name without a record whose element stands for nothing yet, and the name is an array or the
extension refines a field twice. Then, and only then, the element keeps an undefined record. -/
theorem extend_atomic_iff (r : Registry) (name : QualifiedName) (e : TypeExtension) :
    (((r.extend name e).1 ≠ none → (r.extend name e).2 = r) ↔
      ¬ ∃ x, e = .object x ∧ r.idOf? name = none ∧ r.meaning? name.element = none ∧
        (0 < name.arrayLayers ∨ ¬ x.refinedFields.Nodup)) ∧
    ((r.extend name e).1 ≠ none → (r.extend name e).2 = r ∨
      (r.extend name e).2 = (r.push (.object (.undefined name.element)) e.span).2) := by
  by_cases hunknown : ∃ x, e = .object x ∧ r.idOf? name = none ∧ r.meaning? name.element = none
  · obtain ⟨x, rfl, hid, hmeaning⟩ := hunknown
    obtain ⟨hrefused, hafter⟩ := @extend_of_unknown r name x hid hmeaning
    refine ⟨⟨?_, ?_⟩, fun hne => Or.inr (hafter hne)⟩
    · rintro h ⟨x', hx', -, -, hbad⟩
      cases hx'
      have hne := hrefused.2 hbad
      exact push_ne r _ _ ((hafter hne).symm.trans (h hne))
    · intro h hne
      exact absurd ⟨x, rfl, hid, hmeaning, hrefused.1 hne⟩ h
  · have hsame : (r.extend name e).1 ≠ none → (r.extend name e).2 = r := by
      intro hne
      cases h : r.extend name e with
      | mk refusal after =>
        cases refusal with
        | none => rw [h] at hne; exact absurd rfl hne
        | some refusal =>
          show after = r
          rw [extend_refused h, extensionSlot_snd]
          split_ifs with hobject
          · refine resolve_snd_eq_iff.2 fun hmeaning => hunknown ?_
            cases e with
            | object x => exact ⟨x, rfl, hobject.1, hmeaning⟩
            | enum x => cases hobject.2
            | typeAlias x => cases hobject.2
          · rfl
    refine ⟨⟨?_, fun _ => hsame⟩, fun hne => Or.inl (hsame hne)⟩
    rintro - ⟨x, hx, hid, hmeaning, -⟩
    exact hunknown ⟨x, hx, hid, hmeaning⟩

/-- An extension that refines one field twice is refused, and an undefined type is recorded. -/
theorem extend_refused_records_name :
    let name := QualifiedName.ofParts "paint" "Colour"
    let twice : ObjectExtension := { fields := [
      { name := "shade", refinement := some ⟨.primitive .int, none⟩ },
      { name := "shade", refinement := some ⟨.primitive .string, none⟩ }] }
    Reachable {} ∧ (extend {} name (.object twice)).1 ≠ none ∧
      (extend {} name (.object twice)).2.unresolved.length = 1 ∧ (extend {} name (.object twice)).2 ≠ {} := by
  intro name twice
  refine ⟨.refl {}, by decide, by decide, fun h => ?_⟩
  have hsize := congrArg size h
  revert hsize
  decide

end Registry

end SemanticSchema
