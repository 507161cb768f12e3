import SemanticSchema.Proofs.Registry.Run

/-!
# Defining names that have a record

A definition of a name with a record writes that record or nothing, and whether it is refused can be
read off that record. So definitions of different names do not get in each other's way.

* `Registry.register_of_slot` : what defining such a name comes to;
* `Registry.refusals` : the report on a definition, if it is refused;
* `Registry.refusals_apply_register`, `Registry.apply_register_comm` : the definition of one name
  before or after that of another;
* `Registry.registerAll`, `Registry.registerAll_perm` : several names are defined in any order.
-/

set_option autoImplicit false

namespace SemanticSchema.Registry

variable {r : Registry} {name other : QualifiedName} {id : TypeId} {x : Record}

/-- The report on a definition that is refused. -/
def refusals (r : Registry) (name : QualifiedName) (d : TypeDefinition) : List Diagnostic :=
  match r.register name d with
  | .ok _ => []
  | .error e => [e.toDiagnostic d.span]

theorem exists_slot_of_contains (h : r.contains name) :
    ∃ id x, r.idOf? name = some id ∧ r.get? id = some x ∧ x.name = name := by
  obtain ⟨id, hid⟩ := Option.isSome_iff_exists.1 h
  obtain ⟨x, hx, hname⟩ := exists_of_idOf? hid
  exact ⟨id, x, hid, hx, hname⟩

theorem register_of_slot (d : TypeDefinition) (hid : r.idOf? name = some id) (hx : r.get? id = some x) :
    r.register name d = (fill x.body d).map fun body => (id, r.setBody id body) := by
  simp only [register, hid, hx]

theorem apply_register_of_ok {d : TypeDefinition} {body : TypeBody} (hid : r.idOf? name = some id)
    (hx : r.get? id = some x) (hfill : fill x.body d = .ok body) :
    r.apply (.register name d) = r.setBody id body := by
  simp only [apply, register_of_slot d hid hx, hfill, Except.map]

theorem apply_register_of_error {d : TypeDefinition} {e : RegistryError} (hid : r.idOf? name = some id)
    (hx : r.get? id = some x) (hfill : fill x.body d = .error e) : r.apply (.register name d) = r := by
  simp only [apply, register_of_slot d hid hx, hfill, Except.map]

theorem names_apply_register (d : TypeDefinition) (h : r.contains name) :
    (r.apply (.register name d)).names = r.names := by
  obtain ⟨id, x, hid, hx, -⟩ := exists_slot_of_contains h
  cases hfill : fill x.body d with
  | ok body =>
    rw [apply_register_of_ok hid hx hfill]
    exact names_setBody hx (filled_of_fill hfill).name
  | error e => rw [apply_register_of_error hid hx hfill]

theorem imports_apply_register (d : TypeDefinition) (h : r.contains name) :
    (r.apply (.register name d)).imports = r.imports := by
  obtain ⟨id, x, hid, hx, -⟩ := exists_slot_of_contains h
  cases hfill : fill x.body d with
  | ok body => rw [apply_register_of_ok hid hx hfill]; rfl
  | error e => rw [apply_register_of_error hid hx hfill]

theorem get?_apply_register_of_ne {j : TypeId} (d : TypeDefinition) (hid : r.idOf? name = some id)
    (hj : j ≠ id) : (r.apply (.register name d)).get? j = r.get? j := by
  obtain ⟨x, hx, -⟩ := exists_of_idOf? hid
  cases hfill : fill x.body d with
  | ok body => rw [apply_register_of_ok hid hx hfill, get?_setBody_of_ne body hj]
  | error e => rw [apply_register_of_error hid hx hfill]

/-! ## Two names -/

theorem slot_ne_of_name_ne {j : TypeId} (hne : name ≠ other) (hid : r.idOf? name = some id)
    (hj : r.idOf? other = some j) : j ≠ id := by
  rintro rfl
  obtain ⟨x, hx, hname⟩ := exists_of_idOf? hid
  obtain ⟨y, hy, hother⟩ := exists_of_idOf? hj
  rw [hx] at hy
  cases hy
  exact hne (hname.symm.trans hother)

/-- Defining one name leaves the slot and the record of another as they were. -/
theorem slot_apply_register (d : TypeDefinition) (hne : name ≠ other) (h : r.contains name)
    {j : TypeId} {y : Record} (hj : r.idOf? other = some j) (hy : r.get? j = some y) :
    (r.apply (.register name d)).idOf? other = some j ∧ (r.apply (.register name d)).get? j = some y := by
  obtain ⟨id, x, hid, -, -⟩ := exists_slot_of_contains h
  refine ⟨?_, ?_⟩
  · rw [idOf?_congr (names_apply_register d h), hj]
  · rw [get?_apply_register_of_ne d hid (slot_ne_of_name_ne hne hid hj), hy]

theorem refusals_apply_register (d e : TypeDefinition) (hne : name ≠ other) (h : r.contains name)
    (hother : r.contains other) : (r.apply (.register name d)).refusals other e = r.refusals other e := by
  obtain ⟨j, y, hj, hy, -⟩ := exists_slot_of_contains hother
  obtain ⟨hj', hy'⟩ := slot_apply_register d hne h hj hy
  unfold refusals
  rw [register_of_slot e hj hy, register_of_slot e hj' hy']
  cases fill y.body e <;> rfl

/-- Two different names with records are defined in either order. -/
theorem apply_register_comm (d e : TypeDefinition) (hne : name ≠ other) (h : r.contains name)
    (hother : r.contains other) :
    (r.apply (.register name d)).apply (.register other e) =
      (r.apply (.register other e)).apply (.register name d) := by
  obtain ⟨id, x, hid, hx, -⟩ := exists_slot_of_contains h
  obtain ⟨j, y, hj, hy, -⟩ := exists_slot_of_contains hother
  obtain ⟨hj', hy'⟩ := slot_apply_register d hne h hj hy
  obtain ⟨hid', hx'⟩ := slot_apply_register e hne.symm hother hid hx
  cases hd : fill x.body d with
  | error refusal =>
    rw [apply_register_of_error hid' hx' hd, apply_register_of_error hid hx hd]
  | ok body =>
    cases he : fill y.body e with
    | error refusal =>
      rw [apply_register_of_error hj' hy' he, apply_register_of_error hj hy he]
    | ok body' =>
      rw [apply_register_of_ok hj' hy' he, apply_register_of_ok hid' hx' hd,
        apply_register_of_ok hid hx hd, apply_register_of_ok hj hy he]
      exact setBody_comm (slot_ne_of_name_ne hne hid hj).symm body body'

/-! ## Several names -/

/-- Defines some names, one after another. -/
def registerAll (r : Registry) (defs : List (QualifiedName × TypeDefinition)) : Registry :=
  r.run (defs.map fun x => .register x.1 x.2)

theorem contains_apply_register (d : TypeDefinition) (h : r.contains name) :
    (r.apply (.register name d)).contains other = r.contains other := by
  rw [contains, contains, idOf?_congr (names_apply_register d h)]

/-- Different names with records are defined in any order. -/
theorem registerAll_perm {defs defs' : List (QualifiedName × TypeDefinition)} (hperm : defs.Perm defs')
    (hdistinct : (defs.map Prod.fst).Nodup) (hslots : ∀ x ∈ defs, r.contains x.1) :
    r.registerAll defs = r.registerAll defs' := by
  induction hperm generalizing r with
  | nil => rfl
  | cons x _ ih =>
    obtain ⟨hx, hrest⟩ := List.forall_mem_cons.1 hslots
    rw [List.map_cons, List.nodup_cons] at hdistinct
    refine ih (r := r.apply (.register x.1 x.2)) hdistinct.2 fun y hy => ?_
    rw [contains_apply_register x.2 hx]
    exact hrest y hy
  | swap x y l =>
    obtain ⟨hy, hrest⟩ := List.forall_mem_cons.1 hslots
    have hne : y.1 ≠ x.1 := by
      rw [List.map_cons, List.map_cons, List.nodup_cons] at hdistinct
      exact fun heq => hdistinct.1 (heq ▸ List.mem_cons_self)
    exact congrArg (fun r : Registry => r.run (l.map fun x => .register x.1 x.2))
      (apply_register_comm y.2 x.2 hne hy (hrest x List.mem_cons_self))
  | trans h _ ih ih' =>
    have hdistinct' := (h.map Prod.fst).nodup_iff.1 hdistinct
    exact (ih hdistinct hslots).trans (ih' hdistinct' fun x hx => hslots x (h.mem_iff.2 hx))

end SemanticSchema.Registry
