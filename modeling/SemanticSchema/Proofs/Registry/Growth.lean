import SemanticSchema.Proofs.Registry.Run

/-!
# Records only grow

A reference to a user type is handed out once and is never taken back: whatever is done to the
registry later, its slot keeps the name, and a definition, once there, stays as it is.

* `Record.Grows` : how a record may differ later. It keeps its name and its place; a definition is
  for good; extensions are added at the end; the kind is open only while there is neither;
* `Registry.Grows` : the same of every slot;
* `Registry.grows_change`, `Registry.grows_run` : every write, and so every run, only lets grow;
* `Registry.late_binding` : a name that resolved to a slot is later defined in that slot.
-/

set_option autoImplicit false

namespace SemanticSchema

/-- How a record may differ later. -/
structure Record.Grows (x y : Record) : Prop where
  name : y.name = x.name
  origin : y.origin = x.origin
  definition : ∀ d, x.body.definition? = some d → y.body.definition? = some d
  extensions : x.body.extensions <+: y.body.extensions
  kind : y.body.kind ≠ x.body.kind → x.isDefined = false ∧ x.body.extensions = []

theorem Record.Grows.refl (x : Record) : x.Grows x :=
  ⟨rfl, rfl, fun _ hd => hd, List.prefix_refl _, fun hne => absurd rfl hne⟩

theorem Record.isDefined_eq_false_iff {x : Record} : x.isDefined = false ↔ x.body.definition? = none := by
  rw [Record.isDefined, TypeBody.isDefined_eq]
  cases x.body.definition? <;> simp

/-- Growth composes: if the kind changes in the second step only, the record was still undefined
and without extensions before the first. -/
theorem Record.Grows.trans {x y z : Record} (h : x.Grows y) (h' : y.Grows z) : x.Grows z where
  name := h'.name.trans h.name
  origin := h'.origin.trans h.origin
  definition d hd := h'.definition d (h.definition d hd)
  extensions := h.extensions.trans h'.extensions
  kind hne := by
    -- The kind changed in the second step only, or already in the first.
    by_cases hkind : y.body.kind = x.body.kind
    · obtain ⟨hundefined, hextensions⟩ := h'.kind (by rw [hkind]; exact hne)
      refine ⟨?_, List.prefix_nil.1 (hextensions ▸ h.extensions)⟩
      rw [Record.isDefined_eq_false_iff] at hundefined ⊢
      cases hd : x.body.definition? with
      | none => rfl
      | some d => rw [h.definition d hd] at hundefined; cases hundefined
    · exact h.kind hkind

theorem TypeBody.Filled.grows {x : Record} {d : TypeDefinition} {body : TypeBody} (h : x.body.Filled d body) :
    x.Grows { x with body := body } where
  name := h.name
  origin := rfl
  definition d' hd' := by
    have hundefined := Record.isDefined_eq_false_iff.1 h.undefined
    rw [hundefined] at hd'
    cases hd'
  extensions := h.extensions.symm ▸ List.prefix_refl x.body.extensions
  kind hne := ⟨h.undefined, h.kind hne⟩

theorem TypeBody.Extended.grows {x : Record} {e : TypeExtension} {body : TypeBody} (h : x.body.Extended e body) :
    x.Grows { x with body := body } where
  name := h.name
  origin := rfl
  definition d hd := h.definition.trans hd
  extensions := by rw [h.extensions]; exact List.prefix_append _ _
  kind hne := absurd h.kind hne

namespace Registry

variable {r r' : Registry} {name : QualifiedName} {id : TypeId}

/-- Every slot keeps its record, which may have grown. -/
def Grows (r r' : Registry) : Prop :=
  ∀ id x, r.get? id = some x → ∃ y, r'.get? id = some y ∧ x.Grows y

theorem Grows.refl (r : Registry) : r.Grows r := by
  intro id x hx
  exact ⟨x, hx, .refl x⟩

theorem Grows.trans {r₁ r₂ r₃ : Registry} (h : r₁.Grows r₂) (h' : r₂.Grows r₃) : r₁.Grows r₃ := by
  intro id x hx
  obtain ⟨y, hy, hxy⟩ := h id x hx
  obtain ⟨z, hz, hyz⟩ := h' id y hy
  exact ⟨z, hz, hxy.trans hyz⟩

/-! ## One change -/

theorem grows_push (r : Registry) (body : TypeBody) (origin : Span) : r.Grows (r.push body origin).2 := by
  intro id x hx
  exact ⟨x, get?_push_of_some body origin hx, .refl x⟩

theorem grows_setBody {x : Record} {body : TypeBody} (hx : r.get? id = some x)
    (hgrows : x.Grows { x with body := body }) : r.Grows (r.setBody id body) := by
  intro j y hy
  by_cases hj : j = id
  · subst hj
    obtain rfl : x = y := Option.some.inj (hx.symm.trans hy)
    exact ⟨_, get?_setBody_self body hx, hgrows⟩
  · exact ⟨y, (get?_setBody_of_ne body hj).trans hy, .refl y⟩

theorem grows_change (h : r.Change r') : r.Grows r' := by
  cases h with
  | imported names => exact .refl r
  | named origin hnew => exact grows_push r _ origin
  | defined d hnew => exact grows_push r _ d.span
  | filled hx hfill => exact grows_setBody hx (filled_of_fill hfill).grows
  | extended hx hextend =>
    exact grows_setBody hx (TypeBody.extended_of_extend hextend).grows

/-! ## Runs -/

theorem grows_run (r : Registry) (events : List Event) : r.Grows (r.run events) :=
  run_invariant (fun _ _ hchange hgrows => hgrows.trans (grows_change hchange)) (.refl r) events

theorem Reaches.grows (h : r.Reaches r') : r.Grows r' := by
  obtain ⟨events, rfl⟩ := h
  exact grows_run r events

theorem Grows.names_prefix (h : r.Grows r') : r.names <+: r'.names := by
  refine List.prefix_iff_getElem?.2 fun i hi => ?_
  have hname : r.names[i]? = some r.names[i] := List.getElem?_eq_getElem hi
  rw [getElem?_names] at hname ⊢
  obtain ⟨x, hx, hxname⟩ := Option.map_eq_some_iff.1 hname
  obtain ⟨y, hy, hxy⟩ := h ⟨i⟩ x hx
  rw [hy, ← hxname, ← hxy.name]
  rfl

theorem Grows.idOf? (h : r.Grows r') (hid : r.idOf? name = some id) : r'.idOf? name = some id :=
  idOf?_of_prefix h.names_prefix hid

/-! ## Definitions -/

/-- A definition that is accepted stands in the slot that is answered. -/
theorem definition?_of_register {d : TypeDefinition} (h : r.register name d = .ok (id, r')) :
    ∃ x, r'.get? id = some x ∧ x.body.definition? = some d := by
  rcases register_ok_cases h with ⟨-, rfl, rfl⟩ | ⟨x, body, -, hx, hfill, rfl⟩
  · exact ⟨_, (get?_push ..).trans (if_pos rfl), TypeDefinition.definition?_toBody ..⟩
  · exact ⟨_, get?_setBody_self body hx, (filled_of_fill hfill).definition⟩

/-- A name with a slot is defined in that slot. -/
theorem slot_of_register {d : TypeDefinition} {slot : TypeId} (hid : r.idOf? name = some id)
    (h : r.register name d = .ok (slot, r')) : slot = id := by
  rcases register_ok_cases h with ⟨hnew, -, -⟩ | ⟨-, -, hslot, -⟩
  · rw [hid] at hnew; cases hnew
  · exact Option.some.inj (hslot.symm.trans hid)

/-- References bind late and definitions are written once. In every run each slot keeps its name;
what is defined stays defined, as the same kind and by the same definition; extensions are only
added at the end; and the kind changes only while there is neither. A name that resolved to a slot
is later defined in that slot, whose record carries the definition from then on; and a definition
that is refused changes nothing. -/
theorem late_binding (r : Registry) (events : List Event) :
    (∀ id x, r.get? id = some x → ∃ y, (r.run events).get? id = some y ∧ y.name = x.name ∧
      (∀ d, x.body.definition? = some d → y.body.definition? = some d ∧ y.body.kind = x.body.kind) ∧
      x.body.extensions <+: y.body.extensions ∧
      (y.body.kind ≠ x.body.kind → x.isDefined = false ∧ x.body.extensions = [])) ∧
    (∀ origin name id, (r.resolve origin name).1 = .user id →
      ∀ d slot defined, ((r.resolve origin name).2.run events).register name d = .ok (slot, defined) →
        slot = id ∧ ∀ later, ∃ x, (defined.run later).get? id = some x ∧ x.body.definition? = some d) ∧
    (∀ name d e, r.register name d = .error e → r.apply (.register name d) = r) := by
  refine ⟨?_, ?_, ?_⟩
  · intro id x hx
    obtain ⟨y, hy, hxy⟩ := grows_run r events id x hx
    refine ⟨y, hy, hxy.name, ?_, hxy.extensions, hxy.kind⟩
    intro d hd
    have hd' := hxy.definition d hd
    have hkind : y.body.kind = x.body.kind := by
      rw [TypeBody.kind_of_definition? hd, TypeBody.kind_of_definition? hd']
    exact ⟨hd', hkind⟩
  · intro origin name id hresolve d slot defined hregister
    have hid := (grows_run _ events).idOf? (idOf?_of_resolve hresolve)
    have hslot : slot = id := slot_of_register hid hregister
    subst hslot
    refine ⟨rfl, ?_⟩
    intro later
    obtain ⟨x, hx, hd⟩ := definition?_of_register hregister
    obtain ⟨y, hy, hxy⟩ := grows_run defined later slot x hx
    exact ⟨y, hy, hxy.definition d hd⟩
  · intro name d e h
    simp only [apply, h]

/-- A name that is referred to, then declared as an enum, then imported. -/
theorem late_binding_forward_reference :
    let name := QualifiedName.ofParts "paint" "Colour"
    let d := TypeDefinition.enum { members := [EnumMember.ofName name "RED" none] }
    let forward := ({} : Registry).resolve .unknown name
    forward.1 = .user ⟨0⟩ ∧ ∃ x, (forward.2.run [.register name d, .addImport name]).get? ⟨0⟩ = some x ∧
      x.body.definition? = some d := by
  intro name d forward
  have hresolve : forward.1 = .user ⟨0⟩ := by decide
  obtain ⟨hslot, hlater⟩ := (late_binding {} []).2.1 .unknown name ⟨0⟩ hresolve d ⟨0⟩ _ rfl
  exact ⟨hresolve, hlater [.addImport name]⟩

end Registry

end SemanticSchema
