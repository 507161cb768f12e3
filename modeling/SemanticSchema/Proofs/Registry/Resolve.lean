import Mathlib.Logic.Function.Iterate
import SemanticSchema.Proofs.Registry.Slots

/-!
# What resolving a name does

A name is an array of some element, any number of layers deep, or its own element. The element
either means something already, and then nothing is recorded, or it gets the next record.

* `QualifiedName.element`, `QualifiedName.arrayLayers` : the name behind the layers, and their number;
* `Registry.meaning?` : what a name that is no array stands for already;
* `Registry.resolve_eq_of_known`, `Registry.resolve_eq_of_unknown` : the two cases;
* `Registry.resolve_snd_eq_iff` : when resolving records nothing;
* `Registry.resolve_congr` : a name that means something means the same wherever the names and the
  imports are the same;
* `Registry.resolve_fst_congr` : where a name stands plays no part in what it resolves to.
-/

set_option autoImplicit false

namespace SemanticSchema

namespace QualifiedName

/-- The name behind the array layers. -/
def element : QualifiedName → QualifiedName
  | ⟨ns, simple, [m]⟩ =>
    if isBuiltin ⟨ns, simple, [m]⟩ TypeRef.arrayName then m.element else ⟨ns, simple, [m]⟩
  | name => name

/-- The number of array layers. -/
def arrayLayers : QualifiedName → Nat
  | ⟨ns, simple, [m]⟩ =>
    if isBuiltin ⟨ns, simple, [m]⟩ TypeRef.arrayName then m.arrayLayers + 1 else 0
  | _ => 0

theorem element_eq_self {name : QualifiedName} (h : name.arrayLayers = 0) : name.element = name := by
  induction name using element.induct with
  | case1 ns simple m harray ih => rw [arrayLayers, if_pos harray] at h; cases h
  | case2 ns simple m harray => rw [element, if_neg harray]
  | case3 name hlayers => rw [element.eq_2 _ hlayers]

end QualifiedName

namespace Registry

variable {r r' : Registry} {name : QualifiedName} {origin : Span}

/-- What a name that is no array stands for already. -/
def meaning? (r : Registry) (name : QualifiedName) : Option TypeRef :=
  match Primitive.ofName? name with
  | some p => some (.primitive p)
  | none =>
    if name.isBuiltin TypeRef.voidName then some .void
    else match r.idOf? name with
      | some id => some (.user id)
      | none => if r.isImported name then some (.imported name) else none

theorem meaning?_congr (hnames : r'.names = r.names) (himports : r'.imports = r.imports) :
    r'.meaning? name = r.meaning? name := by
  rw [meaning?, meaning?, idOf?_congr hnames, isImported, isImported, himports]

theorem idOf?_of_meaning?_eq_none (h : r.meaning? name = none) : r.idOf? name = none := by
  cases hid : r.idOf? name with
  | none => rfl
  | some id =>
    rw [meaning?] at h
    split at h
    · cases h
    · split at h
      · cases h
      · rw [hid] at h; cases h

theorem resolveNamed_of_known {t : TypeRef} (h : r.meaning? name = some t) :
    r.resolveNamed name origin = (t, r) := by
  unfold resolveNamed
  unfold meaning? at h
  cases hprimitive : Primitive.ofName? name with
  | some p => rw [hprimitive] at h; cases h; rfl
  | none =>
    simp only [hprimitive] at h ⊢
    by_cases hvoid : name.isBuiltin TypeRef.voidName = true
    · rw [if_pos hvoid] at h ⊢; cases h; rfl
    · rw [if_neg hvoid] at h ⊢
      cases hid : r.idOf? name with
      | some id => rw [hid] at h; cases h; rfl
      | none =>
        simp only [hid] at h ⊢
        split_ifs at h ⊢
        cases h; rfl

theorem resolveNamed_of_unknown (h : r.meaning? name = none) :
    r.resolveNamed name origin =
      (.user ⟨r.size⟩, (r.push (.object (.undefined name)) origin).2) := by
  have hid := idOf?_of_meaning?_eq_none h
  unfold resolveNamed
  unfold meaning? at h
  cases hprimitive : Primitive.ofName? name with
  | some p => rw [hprimitive] at h; cases h
  | none =>
    simp only [hprimitive, hid] at h ⊢
    split_ifs at h ⊢
    rfl

/-- Resolving a name resolves its element, and puts the layers back. -/
theorem resolve_eq (r : Registry) (origin : Span) (name : QualifiedName) :
    r.resolve origin name = (TypeRef.array^[name.arrayLayers] (r.resolveNamed name.element origin).1,
      (r.resolveNamed name.element origin).2) := by
  induction name using QualifiedName.element.induct with
  | case1 ns simple m harray ih =>
    rw [resolve, if_pos harray, ih, QualifiedName.element, if_pos harray, QualifiedName.arrayLayers,
      if_pos harray, Function.iterate_succ_apply']
  | case2 ns simple m harray =>
    rw [resolve, if_neg harray, QualifiedName.element, if_neg harray, QualifiedName.arrayLayers,
      if_neg harray]
    rfl
  | case3 name hlayers =>
    rw [resolve.eq_2 _ _ _ hlayers, QualifiedName.element.eq_2 _ hlayers, QualifiedName.arrayLayers.eq_2 _ hlayers]
    rfl

theorem resolve_eq_of_known {t : TypeRef} (h : r.meaning? name.element = some t) :
    r.resolve origin name = (TypeRef.array^[name.arrayLayers] t, r) := by
  rw [resolve_eq, resolveNamed_of_known h]

theorem resolve_eq_of_unknown (h : r.meaning? name.element = none) :
    r.resolve origin name = (TypeRef.array^[name.arrayLayers] (.user ⟨r.size⟩),
      (r.push (.object (.undefined name.element)) origin).2) := by
  rw [resolve_eq, resolveNamed_of_unknown h]

/-- The place where a name is used plays no part in the type that it comes to. -/
theorem resolve_fst_congr (r : Registry) (origin origin' : Span) (name : QualifiedName) :
    (r.resolve origin' name).1 = (r.resolve origin name).1 := by
  cases h : r.meaning? name.element with
  | some t => rw [resolve_eq_of_known h, resolve_eq_of_known h]
  | none => rw [resolve_eq_of_unknown h, resolve_eq_of_unknown h]

theorem push_ne (r : Registry) (body : TypeBody) (origin : Span) : (r.push body origin).2 ≠ r := by
  intro h
  have hsize := congrArg size h
  simp [push, size] at hsize

/-- Resolving leaves the registry alone just when the element means something already. -/
theorem resolve_snd_eq_iff : (r.resolve origin name).2 = r ↔ r.meaning? name.element ≠ none := by
  cases h : r.meaning? name.element with
  | none =>
    rw [resolve_eq_of_unknown h]
    constructor
    · intro heq
      exact absurd heq (push_ne _ _ _)
    · intro hne
      exact absurd rfl hne
  | some t =>
    rw [resolve_eq_of_known h]
    exact ⟨fun _ => nofun, fun _ => rfl⟩

theorem resolve_congr (hnames : r'.names = r.names) (himports : r'.imports = r.imports)
    (h : (r.resolve origin name).2 = r) : r'.resolve origin name = ((r.resolve origin name).1, r') := by
  obtain ⟨t, ht⟩ := Option.ne_none_iff_exists'.1 (resolve_snd_eq_iff.1 h)
  have ht' : r'.meaning? name.element = some t := (meaning?_congr hnames himports).trans ht
  rw [resolve_eq_of_known ht, resolve_eq_of_known ht']

theorem array_iterate_eq_user {n : Nat} {t : TypeRef} {id : TypeId}
    (h : TypeRef.array^[n] t = .user id) : n = 0 ∧ t = .user id := by
  cases n with
  | zero => exact ⟨rfl, h⟩
  | succ n => rw [Function.iterate_succ_apply'] at h; cases h

theorem idOf?_of_meaning? {id : TypeId} (h : r.meaning? name = some (.user id)) : r.idOf? name = some id := by
  unfold meaning? at h
  split at h
  · cases h
  · split at h
    · cases h
    · split at h
      · next hid => cases h; exact hid
      · split at h <;> cases h

/-- A name that resolves to a user type has that slot from then on. -/
theorem idOf?_of_resolve {id : TypeId} (h : (r.resolve origin name).1 = .user id) :
    (r.resolve origin name).2.idOf? name = some id := by
  cases hmeaning : r.meaning? name.element with
  | some t =>
    rw [resolve_eq_of_known hmeaning] at h ⊢
    obtain ⟨hlayers, rfl⟩ := array_iterate_eq_user h
    rw [QualifiedName.element_eq_self hlayers] at hmeaning
    exact idOf?_of_meaning? hmeaning
  | none =>
    rw [resolve_eq_of_unknown hmeaning] at h ⊢
    obtain ⟨hlayers, hid⟩ := array_iterate_eq_user h
    rw [QualifiedName.element_eq_self hlayers] at hmeaning ⊢
    cases hid
    exact idOf?_push_self (.object (.undefined name)) origin (idOf?_of_meaning?_eq_none hmeaning)

end Registry

end SemanticSchema
