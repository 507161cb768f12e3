import Mathlib.Data.Nat.Init
import SemanticSchema.Constraint.Property
import SemanticSchema.Proofs.Registry.Reordered

/-!
# Fields found by their type

A type means the only field that has it or a type below it. If there are several, it means the only one of
them that has just this type. Which fields there are decides, and not the order in which they are met.

* `OnlyEntry`, `SeveralEntries` : a list has one entry of some sort, or more;
* `Registry.Fits`, `Registry.TypeMeans` : the type of a field is some type, or has it above; the field that
  a type means;
* `Registry.fieldOfType_eq_ok_iff_means`, `Registry.fieldOfType_eq_error_iff` : what is found, and the error
  otherwise, `Registry.typeError`;
* `Registry.Reordered.fieldsAssignableTo_perm` : the candidates in another order of declaration;
* `PropertyError.Alike` : errors that list the candidates in different orders;
* `Registry.typedField_exact` : which field is found, and when there is an error.
-/

set_option autoImplicit false

namespace SemanticSchema

open Relation

/-! ## Entries of a list -/

/-- A list has one entry of some sort at one place, and no other such entry. -/
def OnlyEntry {α : Type} (P : α → Prop) (xs : List α) (x : α) : Prop :=
  ∃ before after, xs = before ++ x :: after ∧ P x ∧ ∀ y ∈ before ++ after, ¬ P y

/-- A list has entries of some sort at two places or more. -/
def SeveralEntries {α : Type} (P : α → Prop) (xs : List α) : Prop := ∃ x y, [x, y].Sublist xs ∧ P x ∧ P y

section

variable {α : Type} {P : α → Prop} {p : α → Bool} {xs : List α} {x : α}

theorem filter_eq_singleton_iff (hp : ∀ x, p x = true ↔ P x) : xs.filter p = [x] ↔ OnlyEntry P xs x := by
  rw [List.filter_eq_cons_iff]
  simp only [List.filter_eq_nil_iff, hp, OnlyEntry, List.mem_append, or_imp, forall_and]
  exact exists₂_congr fun before after => and_congr_right fun _ => and_left_comm

theorem one_lt_length_filter_iff (hp : ∀ x, p x = true ↔ P x) :
    1 < (xs.filter p).length ↔ SeveralEntries P xs := by
  constructor
  · intro h
    have hmem : ∀ z ∈ xs.filter p, P z := fun z hz => (hp z).1 (List.mem_filter.1 hz).2
    have hsublist : (xs.filter p).Sublist xs := List.filter_sublist
    match hfilter : xs.filter p, h with
    | x :: y :: rest, _ =>
      rw [hfilter] at hmem hsublist
      have hfirst : [x, y].Sublist (x :: y :: rest) := List.prefix_append [x, y] rest |>.sublist
      exact ⟨x, y, hfirst.trans hsublist, hmem x (by simp), hmem y (by simp)⟩
  · rintro ⟨x, y, hsublist, hx, hy⟩
    have hboth : [x, y].filter p = [x, y] := by simp [hp, hx, hy]
    have hlength := (hsublist.filter p).length_le
    rwa [hboth] at hlength

end

namespace Registry

variable {r r' : Registry} {object : TypeId} {type : TypeRef} {f : Field}

/-! ## What is found -/

/-- Whether the type of a field is some type, or has it above. -/
def Fits (r : Registry) (type : TypeRef) (f : Field) : Prop :=
  f.type = type ∨ TransGen r.SupertypeStep f.type type

/-- The field that a type means in an object type: the only one that fits, or of several that fit the only
one of just this type. -/
def TypeMeans (r : Registry) (object : TypeId) (type : TypeRef) (f : Field) : Prop :=
  OnlyEntry (r.Fits type) (r.allFields object) f ∨
    SeveralEntries (r.Fits type) (r.allFields object) ∧ OnlyEntry (·.type = type) (r.allFields object) f

theorem isAssignable_iff_fits : r.isAssignable f.type type = true ↔ r.Fits type f := by
  rw [isAssignable_iff, reflTransGen_iff_eq_or_transGen, eq_comm]
  rfl

theorem fieldsAssignableTo_eq_nil_iff :
    r.fieldsAssignableTo object type = [] ↔ ∀ f ∈ r.allFields object, ¬ r.Fits type f := by
  simp only [fieldsAssignableTo, List.filter_eq_nil_iff, isAssignable_iff_fits]

theorem filter_fieldsAssignableTo :
    (r.fieldsAssignableTo object type).filter (·.type == type) = (r.allFields object).filter (·.type == type) := by
  rw [fieldsAssignableTo, List.filter_filter]
  refine List.filter_congr fun f _ => ?_
  by_cases h : f.type = type <;> simp [h, isAssignable]

theorem fieldOfType_eq_ok_iff : r.fieldOfType object type = .ok f ↔
    r.fieldsAssignableTo object type = [f] ∨ 1 < (r.fieldsAssignableTo object type).length ∧
      (r.fieldsAssignableTo object type).filter (·.type == type) = [f] := by
  unfold fieldOfType
  match r.fieldsAssignableTo object type with
  | [] => simp
  | [g] => simp
  | g :: h :: rest =>
    simp only [List.length_cons]
    split
    · next e hexact => simp [hexact]
    · next hexact => simpa using hexact f

/-- The error of a type that means no field: none fits, or too many do. -/
def typeError (r : Registry) (object : TypeId) (type : TypeRef) : PropertyError :=
  if r.fieldsAssignableTo object type = [] then .noFieldOfType (r.nameOf (.user object)) (r.nameOf type)
  else .ambiguous (r.nameOf (.user object)) (r.nameOf type) ((r.fieldsAssignableTo object type).map (·.name))

theorem typeError_eq_noFieldOfType_iff :
    r.typeError object type = .noFieldOfType (r.nameOf (.user object)) (r.nameOf type) ↔
      r.fieldsAssignableTo object type = [] := by
  unfold typeError
  split <;> simp_all

theorem exists_typeError_eq_ambiguous_iff :
    (∃ candidates, r.typeError object type = .ambiguous (r.nameOf (.user object)) (r.nameOf type) candidates) ↔
      r.fieldsAssignableTo object type ≠ [] := by
  unfold typeError
  split <;> simp_all

theorem fieldOfType_of_not_ok (h : ∀ f, r.fieldOfType object type ≠ .ok f) :
    r.fieldOfType object type = .error (r.typeError object type) := by
  unfold typeError
  match hfits : r.fieldsAssignableTo object type with
  | [] => rw [fieldOfType, hfits, if_pos rfl]
  | [g] => exact absurd (fieldOfType_eq_ok_iff.2 (Or.inl hfits)) (h g)
  | g :: k :: rest =>
    rw [fieldOfType, hfits, if_neg (List.cons_ne_nil _ _)]
    dsimp only
    split
    · next e hexact =>
      have hmany : 1 < (g :: k :: rest).length := by simp
      exact absurd (fieldOfType_eq_ok_iff.2 (Or.inr (hfits ▸ ⟨hmany, hexact⟩))) (h e)
    · rfl

theorem fieldOfType_eq_ok_iff_means : r.fieldOfType object type = .ok f ↔ r.TypeMeans object type f := by
  rw [fieldOfType_eq_ok_iff, filter_fieldsAssignableTo, fieldsAssignableTo,
    filter_eq_singleton_iff fun _ => isAssignable_iff_fits, one_lt_length_filter_iff fun _ => isAssignable_iff_fits,
    filter_eq_singleton_iff fun _ => beq_iff_eq]
  rfl

theorem fieldOfType_eq_error_iff {e : PropertyError} : r.fieldOfType object type = .error e ↔
    (∀ f, ¬ r.TypeMeans object type f) ∧ r.typeError object type = e := by
  simp only [← fieldOfType_eq_ok_iff_means]
  constructor
  · intro h
    have hnone : ∀ f, r.fieldOfType object type ≠ .ok f := by simp [h]
    exact ⟨hnone, Except.error.inj ((fieldOfType_of_not_ok hnone).symm.trans h)⟩
  · rintro ⟨hnone, rfl⟩
    exact fieldOfType_of_not_ok hnone

theorem fieldOfType_eq_noFieldOfType_iff :
    r.fieldOfType object type = .error (.noFieldOfType (r.nameOf (.user object)) (r.nameOf type)) ↔
      ∀ f ∈ r.allFields object, ¬ r.Fits type f := by
  rw [fieldOfType_eq_error_iff, typeError_eq_noFieldOfType_iff, ← fieldsAssignableTo_eq_nil_iff]
  refine and_iff_right_of_imp fun hnil f => ?_
  rw [← fieldOfType_eq_ok_iff_means, fieldOfType_eq_ok_iff, hnil]
  simp

theorem exists_fieldOfType_eq_ambiguous_iff : (∃ candidates, r.fieldOfType object type =
      .error (.ambiguous (r.nameOf (.user object)) (r.nameOf type) candidates)) ↔
    (∃ f ∈ r.allFields object, r.Fits type f) ∧ ∀ f, ¬ r.TypeMeans object type f := by
  simp only [fieldOfType_eq_error_iff, exists_and_left, exists_typeError_eq_ambiguous_iff, ne_eq,
    fieldsAssignableTo_eq_nil_iff, not_forall, not_not, exists_prop]
  exact and_comm

/-! ## In another order -/

namespace Reordered

theorem isAssignable_eq (h : r.Reordered r') (t above : TypeRef) :
    r'.isAssignable t above = r.isAssignable t above := by
  rw [Bool.eq_iff_iff, isAssignable_iff, isAssignable_iff, h.supertypeStep_eq]

theorem fieldsAssignableTo_perm (h : r.Reordered r') (object : TypeId) (type : TypeRef) :
    (r.fieldsAssignableTo object type).Perm (r'.fieldsAssignableTo object type) := by
  simp only [fieldsAssignableTo, h.isAssignable_eq]
  exact (h.allFields_perm object).filter _

theorem typeMeans_iff (h : r.Reordered r') : r'.TypeMeans object type f ↔ r.TypeMeans object type f := by
  have hperm := h.fieldsAssignableTo_perm object type
  have hsingleton {xs ys : List Field} (hxs : xs.Perm ys) : ys = [f] ↔ xs = [f] := by
    rw [← List.perm_singleton, ← List.perm_singleton]
    exact ⟨hxs.trans, hxs.symm.trans⟩
  rw [← fieldOfType_eq_ok_iff_means, ← fieldOfType_eq_ok_iff_means, fieldOfType_eq_ok_iff, fieldOfType_eq_ok_iff,
    hsingleton hperm, hperm.length_eq, hsingleton (hperm.filter _)]

end Reordered

end Registry

/-- Errors of one sort about the same types, which may list the candidates in different orders. -/
inductive PropertyError.Alike : PropertyError → PropertyError → Prop
  | refl (e : PropertyError) : Alike e e
  | ambiguous (type fieldType : QualifiedName) {candidates candidates' : List String}
    (h : candidates.Perm candidates') :
    Alike (.ambiguous type fieldType candidates) (.ambiguous type fieldType candidates')

namespace Registry

variable {r r' : Registry} {object : TypeId} {type : TypeRef}

theorem Reordered.typeError_alike (h : r.Reordered r') (object : TypeId) (type : TypeRef) :
    (r.typeError object type).Alike (r'.typeError object type) := by
  have hperm := h.fieldsAssignableTo_perm object type
  unfold typeError
  rw [h.nameOf_eq, h.nameOf_eq]
  by_cases hnil : r.fieldsAssignableTo object type = []
  · rw [if_pos hnil, if_pos (hnil ▸ hperm).nil_eq.symm]
    exact .refl _
  · rw [if_neg hnil, if_neg fun hnil' => hnil (hnil' ▸ hperm).eq_nil]
    exact .ambiguous _ _ (hperm.map _)

theorem Reordered.exists_alike (h : r.Reordered r') {e : PropertyError} (he : r.fieldOfType object type = .error e) :
    ∃ e', r'.fieldOfType object type = .error e' ∧ e.Alike e' := by
  obtain ⟨hnone, rfl⟩ := fieldOfType_eq_error_iff.1 he
  exact ⟨_, fieldOfType_eq_error_iff.2 ⟨fun f => h.typeMeans_iff.not.2 (hnone f), rfl⟩, h.typeError_alike object type⟩

/-- A type finds the field that it means. It finds none if no field has it or a type below it, and it is
ambiguous if there are such fields and it means none of them. Registries that differ only in the order of
fields and supertypes give the same field, or an error of the same sort. -/
theorem typedField_exact (r : Registry) (object : TypeId) (type : TypeRef) :
    let found := (PropertyRef.byType type).resolve r object
    (∀ f, found = .ok f ↔ OnlyEntry (r.Fits type) (r.allFields object) f ∨
      SeveralEntries (r.Fits type) (r.allFields object) ∧ OnlyEntry (·.type = type) (r.allFields object) f) ∧
    (found = .error (.noFieldOfType (r.nameOf (.user object)) (r.nameOf type)) ↔
      ∀ f ∈ r.allFields object, ¬ r.Fits type f) ∧
    ((∃ candidates, found = .error (.ambiguous (r.nameOf (.user object)) (r.nameOf type) candidates)) ↔
      (∃ f ∈ r.allFields object, r.Fits type f) ∧ ∀ f, ¬ r.TypeMeans object type f) ∧
    ∀ r', r.Reordered r' →
      (∀ f, found = .ok f ↔ (PropertyRef.byType type).resolve r' object = .ok f) ∧
      ∀ e, found = .error e → ∃ e', (PropertyRef.byType type).resolve r' object = .error e' ∧ e.Alike e' := by
  refine ⟨fun f => fieldOfType_eq_ok_iff_means, fieldOfType_eq_noFieldOfType_iff,
    exists_fieldOfType_eq_ambiguous_iff, fun r' h => ⟨fun f => ?_, fun e he => h.exists_alike he⟩⟩
  exact fieldOfType_eq_ok_iff_means.trans (h.typeMeans_iff.symm.trans fieldOfType_eq_ok_iff_means.symm)

/-- A trade inherits two fields of asks, which are amounts, from a deal and a note that both have the trade above
them. Its own fee is the only field of just an amount, in whatever order the two are listed. The fields of asks
are ambiguous in both orders. -/
theorem typedField_exact_trade :
    let field (name : String) (type : TypeRef) : Field := { name := name, type := type }
    let object (name : String) (fields : List Field) (inherits : List TypeRef) : Record :=
      ⟨.object (.defined (.ofParts "pay" name) { fields := fields, inherits := inherits }), .unknown⟩
    let typeAlias (name : String) (target : TypeRef) : Record :=
      ⟨.typeAlias (.defined (.ofParts "pay" name) { target := target }), .unknown⟩
    let registry (fields : List Field) (inherits : List TypeRef) : Registry := { records := [
      object "Trade" fields inherits, typeAlias "Ask" (.user ⟨2⟩), typeAlias "Amount" (.primitive .decimal),
      object "Deal" [field "rate" (.user ⟨1⟩)] [.user ⟨0⟩],
      object "Note" [field "tax" (.user ⟨1⟩)] [.user ⟨3⟩, .user ⟨0⟩]] }
    let fee := field "fee" (.user ⟨2⟩)
    let day := field "day" (.primitive .date)
    let r := registry [fee, day] [.user ⟨3⟩, .user ⟨4⟩]
    let r' := registry [day, fee] [.user ⟨4⟩, .user ⟨3⟩]
    let several := PropertyError.ambiguous (.ofParts "pay" "Trade") (.ofParts "pay" "Ask") ["rate", "tax"]
    r.Reordered r' ∧
      ((PropertyRef.byType (.user ⟨2⟩)).resolve r ⟨0⟩ = .ok fee ∧
        (PropertyRef.byType (.user ⟨2⟩)).resolve r' ⟨0⟩ = .ok fee) ∧
      (PropertyRef.byType (.user ⟨1⟩)).resolve r ⟨0⟩ = .error several ∧
        ∃ e, (PropertyRef.byType (.user ⟨1⟩)).resolve r' ⟨0⟩ = .error e ∧ several.Alike e := by
  intro field object typeAlias registry fee day r r' several
  have htrade : (object "Trade" [fee, day] [.user ⟨3⟩, .user ⟨4⟩]).Reordered
      (object "Trade" [day, fee] [.user ⟨4⟩, .user ⟨3⟩]) :=
    ⟨rfl, .object _ _ (.swap ..) (.swap ..)⟩
  have hother (x : Record) : x.Reordered x := ⟨rfl, .refl _⟩
  have hreordered : r.Reordered r' :=
    ⟨rfl, .cons htrade (.cons (hother _) (.cons (hother _) (.cons (hother _) (.cons (hother _) .nil))))⟩
  have hfee : (PropertyRef.byType (.user ⟨2⟩)).resolve r ⟨0⟩ = .ok fee := by
    unfold r registry object typeAlias fee day field
    cbv
  have hseveral : (PropertyRef.byType (.user ⟨1⟩)).resolve r ⟨0⟩ = .error several := by
    unfold several r registry object typeAlias fee day field
    cbv
  exact ⟨hreordered, ⟨hfee, (((typedField_exact r ⟨0⟩ (.user ⟨2⟩)).2.2.2 r' hreordered).1 fee).1 hfee⟩, hseveral,
    ((typedField_exact r ⟨0⟩ (.user ⟨1⟩)).2.2.2 r' hreordered).2 several hseveral⟩

end Registry

end SemanticSchema
