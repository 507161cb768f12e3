import Mathlib.Data.List.Nodup
import Mathlib.Tactic.SplitIfs
import SemanticSchema.Inheritance
import SemanticSchema.Proofs.Registry.Body

/-!
# Slots and names

What the two ways of writing the records, `Registry.push` and `Registry.setBody`, leave in every
slot, and how the slot of a name is found.

* `Registry.names` : the name in each slot; `Registry.idOf?` reads nothing else of the records;
* `Registry.get?_push`, `Registry.get?_setBody` : the records afterwards;
* `Registry.exists_of_idOf?` : the slot of a name holds a record of that name;
* `Registry.idOf?_of_prefix` : a name keeps its slot when names are only added at the end;
* `Registry.NamesDistinct` : no two records have one name, so a record is found by its name.
-/

set_option autoImplicit false

namespace SemanticSchema.Registry

variable {r : Registry} {name : QualifiedName} {id : TypeId}

/-- The name in each slot. -/
def names (r : Registry) : List QualifiedName := r.records.map Record.name

/-! ## Records -/

theorem slot_lt_size {x : Record} (h : r.get? id = some x) : id.slot < r.size :=
  (List.getElem?_eq_some_iff.1 h).1

theorem object?_eq_some_iff {t : ObjectType} :
    r.object? id = some t ↔ ∃ origin, r.get? id = some ⟨.object t, origin⟩ := by
  unfold object?
  constructor
  · intro h
    split at h
    · next t' origin hget => cases h; exact ⟨origin, hget⟩
    · cases h
  · rintro ⟨origin, hget⟩
    rw [hget]

theorem mem_ownFields_iff {f : Field} :
    f ∈ r.ownFields id ↔ ∃ t, r.object? id = some t ∧ f ∈ ObjectType.fields t := by
  unfold ownFields
  cases r.object? id <;> simp

theorem typeAlias?_eq_some_iff {t : TypeAlias} :
    r.typeAlias? id = some t ↔ ∃ origin, r.get? id = some ⟨.typeAlias t, origin⟩ := by
  unfold typeAlias?
  constructor
  · intro h
    split at h
    · next t' origin hget => cases h; exact ⟨origin, hget⟩
    · cases h
  · rintro ⟨origin, hget⟩
    rw [hget]

theorem get?_push (r : Registry) (body : TypeBody) (origin : Span) (id : TypeId) :
    (r.push body origin).2.get? id = if id.slot = r.size then some ⟨body, origin⟩ else r.get? id := by
  show (r.records ++ [⟨body, origin⟩])[id.slot]? = _
  rcases Nat.lt_trichotomy id.slot r.size with hlt | heq | hgt
  · rw [List.getElem?_append_left hlt, if_neg (Nat.ne_of_lt hlt)]
    rfl
  · rw [if_pos heq, heq]
    exact List.getElem?_concat_length
  · rw [if_neg (Nat.ne_of_gt hgt), List.getElem?_eq_none (by rw [List.length_append]; exact hgt)]
    exact (List.getElem?_eq_none (Nat.le_of_lt hgt)).symm

theorem get?_push_of_some {x : Record} (body : TypeBody) (origin : Span) (h : r.get? id = some x) :
    (r.push body origin).2.get? id = some x := by
  rw [get?_push, if_neg (Nat.ne_of_lt (slot_lt_size h)), h]

theorem get?_setBody (r : Registry) (id : TypeId) (body : TypeBody) (j : TypeId) :
    (r.setBody id body).get? j =
      if j = id then (r.get? j).map fun x => { x with body := body } else r.get? j := by
  simp only [setBody, get?, List.getElem?_modify]
  by_cases h : j = id
  · simp [h]
  · have hslot : id.slot ≠ j.slot := fun heq => h (by cases j; cases id; simp_all)
    simp [h, hslot]

theorem get?_setBody_self {x : Record} (body : TypeBody) (h : r.get? id = some x) :
    (r.setBody id body).get? id = some { x with body := body } := by
  rw [get?_setBody, if_pos rfl, h, Option.map_some]

theorem get?_setBody_of_ne {j : TypeId} (body : TypeBody) (h : j ≠ id) :
    (r.setBody id body).get? j = r.get? j := by
  rw [get?_setBody, if_neg h]

/-- Writing two slots comes to the same in either order. -/
theorem setBody_comm {j : TypeId} (h : id ≠ j) (body body' : TypeBody) :
    (r.setBody id body).setBody j body' = (r.setBody j body').setBody id body := by
  have hrecords : ((r.setBody id body).setBody j body').records =
      ((r.setBody j body').setBody id body).records := by
    refine List.ext_getElem? fun i => ?_
    show ((r.setBody id body).setBody j body').get? ⟨i⟩ = ((r.setBody j body').setBody id body).get? ⟨i⟩
    rw [get?_setBody, get?_setBody, get?_setBody, get?_setBody]
    by_cases hid : (⟨i⟩ : TypeId) = id
    · rw [hid, if_neg h, if_neg h]
    · rw [if_neg hid, if_neg hid]
  exact congrArg (fun xs => ({ r with records := xs } : Registry)) hrecords

/-! ## Names -/

theorem length_names (r : Registry) : r.names.length = r.size := List.length_map ..

theorem getElem?_names (r : Registry) (i : Nat) : r.names[i]? = (r.get? ⟨i⟩).map Record.name := by
  simp [names, get?]

theorem idOf?_eq (r : Registry) (name : QualifiedName) :
    r.idOf? name = (r.names.findIdx? (· == name)).map TypeId.mk := by
  simp [idOf?, names, List.findIdx?_map, Function.comp_def]

theorem idOf?_congr {r' : Registry} (h : r'.names = r.names) : r'.idOf? name = r.idOf? name := by
  rw [idOf?_eq, idOf?_eq, h]

theorem idOf?_eq_none_iff : r.idOf? name = none ↔ name ∉ r.names := by
  rw [idOf?_eq, Option.map_eq_none_iff, List.findIdx?_eq_none_iff]
  constructor
  · intro h hmem
    simpa using h name hmem
  · intro h n hn
    have hne : n ≠ name := fun heq => h (heq ▸ hn)
    simpa using hne

theorem exists_of_idOf? (h : r.idOf? name = some id) : ∃ x, r.get? id = some x ∧ x.name = name := by
  obtain ⟨i, hi, rfl⟩ := Option.map_eq_some_iff.1 h
  obtain ⟨hlt, hname, -⟩ := List.findIdx?_eq_some_iff_getElem.1 hi
  exact ⟨r.records[i], List.getElem?_eq_getElem hlt, by simpa using hname⟩

theorem mem_names_of_get? {x : Record} (h : r.get? id = some x) : x.name ∈ r.names :=
  List.mem_map_of_mem (List.mem_of_getElem? h)

theorem idOf?_of_prefix {r' : Registry} (hnames : r.names <+: r'.names) (h : r.idOf? name = some id) :
    r'.idOf? name = some id := by
  obtain ⟨added, hadded⟩ := hnames
  rw [idOf?_eq] at h ⊢
  obtain ⟨i, hi, rfl⟩ := Option.map_eq_some_iff.1 h
  rw [← hadded, List.findIdx?_append, hi]
  rfl

@[simp] theorem names_push (r : Registry) (body : TypeBody) (origin : Span) :
    (r.push body origin).2.names = r.names ++ [body.name] := by
  simp [push, names, Record.name]

/-- A type that replaces one of the same name leaves every name in its slot. -/
theorem names_setBody {x : Record} {body : TypeBody} (h : r.get? id = some x) (hname : body.name = x.name) :
    (r.setBody id body).names = r.names := by
  refine List.ext_getElem? fun i => ?_
  rw [getElem?_names, getElem?_names, get?_setBody]
  split_ifs with hid
  · rw [hid, h]
    exact congrArg some hname
  · rfl

theorem idOf?_push_self (body : TypeBody) (origin : Span) (h : r.idOf? body.name = none) :
    (r.push body origin).2.idOf? body.name = some ⟨r.size⟩ := by
  rw [idOf?_eq, Option.map_eq_none_iff] at h
  rw [idOf?_eq, names_push, List.findIdx?_append, h]
  simp [names, size, List.findIdx?_cons]

theorem idOf?_push_of_ne (body : TypeBody) (origin : Span) (h : name ≠ body.name) :
    (r.push body origin).2.idOf? name = r.idOf? name := by
  have hne : (body.name == name) = false := by simpa using Ne.symm h
  rw [idOf?_eq, idOf?_eq, names_push, List.findIdx?_append, List.findIdx?_singleton, hne]
  simp

theorem nameOf_user {x : Record} (h : r.get? id = some x) : r.nameOf (.user id) = x.name := by
  rw [nameOf, h]

/-! ## Defined records -/

theorem mem_definedSlots {x : Record} :
    (id, x) ∈ r.definedSlots ↔ r.get? id = some x ∧ x.isDefined = true := by
  unfold definedSlots slots
  rw [List.mem_filter, List.mem_map]
  refine and_congr_left fun _ => ⟨?_, ?_⟩
  · rintro ⟨⟨y, i⟩, hy, heq⟩
    cases heq
    exact List.mem_zipIdx_iff_getElem?.1 hy
  · intro hx
    exact ⟨(x, id.slot), List.mem_zipIdx_iff_getElem?.2 hx, rfl⟩

/-- The names of the defined records stand in the order of the slots. -/
theorem names_definedSlots (r : Registry) :
    (r.definedSlots.map fun slot => slot.2.name).Sublist r.names := by
  have hslots : (r.slots.map fun slot => slot.2.name) = r.names :=
    calc (r.slots.map fun slot => slot.2.name)
      _ = (r.records.zipIdx.map Prod.fst).map Record.name := by
        rw [slots, List.map_map, List.map_map]
        rfl
      _ = r.names := by rw [List.zipIdx_map_fst, names]
  exact hslots ▸ (List.filter_sublist.map _)

/-- The defined records are listed in the order of their slots, each once. -/
theorem pairwise_definedSlots (r : Registry) :
    r.definedSlots.Pairwise fun slot slot' => slot.1.slot < slot'.1.slot := by
  refine List.Pairwise.filter _ (List.pairwise_map.2 ?_)
  have hslots : (r.records.zipIdx.map Prod.snd).Pairwise (· < ·) := by
    rw [List.zipIdx_map_snd]
    exact List.pairwise_lt_range'
  exact List.pairwise_map.1 hslots

/-! ## Distinct names -/

/-- No two records have the same name. -/
def NamesDistinct (r : Registry) : Prop := r.names.Nodup

theorem NamesDistinct.push {body : TypeBody} (origin : Span) (h : r.NamesDistinct)
    (hnew : r.idOf? body.name = none) : (r.push body origin).2.NamesDistinct := by
  rw [NamesDistinct, names_push]
  refine List.nodup_append.2 ⟨h, List.nodup_singleton _, ?_⟩
  intro n hn m hm heq
  have hbody : n = body.name := heq.trans (List.mem_singleton.1 hm)
  rw [hbody] at hn
  exact idOf?_eq_none_iff.1 hnew hn

theorem NamesDistinct.idOf?_name {x : Record} (h : r.NamesDistinct) (hx : r.get? id = some x) :
    r.idOf? x.name = some id := by
  cases hid : r.idOf? x.name with
  | none => exact absurd (mem_names_of_get? hx) (idOf?_eq_none_iff.1 hid)
  | some j =>
    obtain ⟨y, hy, hname⟩ := exists_of_idOf? hid
    have hnames : r.names[j.slot]? = r.names[id.slot]? := by
      rw [getElem?_names, getElem?_names]
      exact (congrArg (Option.map Record.name) hy).trans
        ((congrArg some hname).trans (congrArg (Option.map Record.name) hx).symm)
    have hlt : j.slot < r.names.length := by
      rw [length_names]
      exact slot_lt_size hy
    exact congrArg (fun slot => some (TypeId.mk slot)) ((List.getElem?_inj hlt h).1 hnames)

/-- A defined name is listed once among the defined records, and no other name is. -/
theorem NamesDistinct.count_definedSlots (h : r.NamesDistinct) (name : QualifiedName) :
    (r.definedSlots.map fun slot => slot.2.name).count name =
      if (r.idOf? name).any r.isDefined then 1 else 0 := by
  rw [(h.sublist (names_definedSlots r)).count]
  refine if_congr ?_ rfl rfl
  rw [List.mem_map, Option.any_eq_true]
  constructor
  · rintro ⟨⟨id, x⟩, hmem, rfl⟩
    obtain ⟨hx, hdefined⟩ := mem_definedSlots.1 hmem
    exact ⟨id, h.idOf?_name hx, by rw [isDefined, hx]; exact hdefined⟩
  · rintro ⟨id, hid, hdefined⟩
    obtain ⟨x, hx, hname⟩ := exists_of_idOf? hid
    rw [isDefined, hx] at hdefined
    exact ⟨(id, x), mem_definedSlots.2 ⟨hx, hdefined⟩, hname⟩

end SemanticSchema.Registry
