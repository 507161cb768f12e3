import Mathlib.Logic.Relation
import SemanticSchema.Unwrap

/-!
# Behind aliases and arrays, step by step

The walks that look behind aliases and arrays, beside the relation that they walk along.

* `Registry.UnwrapStep`, `Registry.AliasStep` : from an array to its member, from an alias to its target;
* `Registry.unwraps_member`, `Registry.aliases_followAliases`, `Registry.unwraps_unwrapFrom` : the walks
  only take such steps;
* `Registry.EndsInImport` : the steps from a type end in an imported type;
* `Registry.endsInImport_of_isExternal` : so they do from every type that is taken for external;
* `Registry.UnwrapsTo`, `Registry.unwrapsTo_of_unwrapObject?` : the steps from a type lead to an object
  type, as they do when one is found behind it.
-/

set_option autoImplicit false

namespace SemanticSchema.Registry

/-- One step behind an array layer or an alias. -/
inductive UnwrapStep (r : Registry) : TypeRef → TypeRef → Prop
  | member (m : TypeRef) : UnwrapStep r (.array m) m
  | target {id : TypeId} {t : TypeRef} (h : r.aliasTarget? (.user id) = some t) : UnwrapStep r (.user id) t

/-- One step from an alias to its target. -/
def AliasStep (r : Registry) (t next : TypeRef) : Prop := r.aliasTarget? t = some next

instance (r : Registry) (t next : TypeRef) : Decidable (AliasStep r t next) :=
  inferInstanceAs (Decidable (r.aliasTarget? t = some next))

theorem AliasStep.exists_user {r : Registry} {t next : TypeRef} (h : r.AliasStep t next) : ∃ id, t = .user id := by
  cases t with
  | user id => exact ⟨id, rfl⟩
  | primitive p => cases h
  | void => cases h
  | array m => cases h
  | imported name => cases h

theorem AliasStep.unwrapStep {r : Registry} {t next : TypeRef} (h : r.AliasStep t next) : r.UnwrapStep t next := by
  obtain ⟨id, rfl⟩ := h.exists_user
  exact .target h

theorem unwraps_member (r : Registry) (t : TypeRef) : Relation.ReflTransGen (UnwrapStep r) t t.member := by
  induction t using TypeRef.member.induct with
  | case1 m ih => exact .head (.member m) ih
  | case2 t hlayers => rw [TypeRef.member.eq_2 t hlayers]

theorem followAliases_of_target {r : Registry} {id : TypeId} {next : TypeRef} (seen : List TypeId)
    (h : r.aliasTarget? (.user id) = some next) :
    r.followAliases seen (.user id) =
      if id ∈ seen then .user id
      else if next.userId?.any (id :: seen).contains then .user id
      else r.followAliases (id :: seen) next := by
  rw [followAliases]
  split
  · next hnone => rw [h] at hnone; cases hnone
  · next t ht =>
    rw [h] at ht
    cases ht
    rfl

theorem aliases_followAliases (r : Registry) (seen : List TypeId) (t : TypeRef) :
    Relation.ReflTransGen (AliasStep r) t (r.followAliases seen t) := by
  induction seen, t using followAliases.induct r with
  | case1 seen id htarget => rw [followAliases, htarget]
  | case2 seen id next htarget hseen =>
    rw [followAliases_of_target seen htarget, if_pos hseen]
  | case3 seen id next htarget hseen hcycle =>
    rw [followAliases_of_target seen htarget, if_neg hseen, if_pos hcycle]
  | case4 seen id next htarget hseen hcycle ih =>
    rw [followAliases_of_target seen htarget, if_neg hseen, if_neg hcycle]
    exact .head htarget ih
  | case5 seen t hleaf => rw [followAliases.eq_2 r seen t hleaf]

theorem unwraps_followAliases (r : Registry) (seen : List TypeId) (t : TypeRef) :
    Relation.ReflTransGen (UnwrapStep r) t (r.followAliases seen t) :=
  Relation.ReflTransGen.mono (fun _ _ => AliasStep.unwrapStep) t _ (aliases_followAliases r seen t)

/-- Whether the steps from a type end in an imported type. -/
def EndsInImport (r : Registry) (t : TypeRef) : Prop :=
  ∃ name, Relation.ReflTransGen (UnwrapStep r) t (.imported name)

theorem endsInImport_of_isExternal {r : Registry} {t : TypeRef} (h : r.isExternal t = true) :
    r.EndsInImport t := by
  have hsteps := (unwraps_member r t).trans (unwraps_followAliases r [] t.member)
  unfold isExternal underlying at h
  split at h
  · next name hend =>
    rw [hend] at hsteps
    exact ⟨name, hsteps⟩
  · cases h

/-! ## Object types -/

/-- Whether the steps from a type lead to an object type. -/
def UnwrapsTo (r : Registry) (t : TypeRef) (object : TypeId) : Prop :=
  Relation.ReflTransGen (UnwrapStep r) t (.user object) ∧ ∃ o, r.object? object = some o

theorem unwraps_unwrapRound (r : Registry) (t : TypeRef) :
    Relation.ReflTransGen (UnwrapStep r) t (r.unwrapRound t) :=
  (unwraps_member r t).trans (unwraps_followAliases r [] t.member)

theorem unwraps_unwrapFrom (r : Registry) (seen : List TypeRef) (t : TypeRef) :
    Relation.ReflTransGen (UnwrapStep r) t (r.unwrapFrom seen t) := by
  induction seen, t using unwrapFrom.induct r with
  | case1 seen t hseen => rw [unwrapFrom, dif_pos hseen]
  | case2 seen t hseen ih =>
    rw [unwrapFrom, dif_neg hseen]
    exact (unwraps_unwrapRound r t).trans ih

theorem unwrapObject?_eq_some {r : Registry} {t : TypeRef} {object : TypeId} :
    r.unwrapObject? t = some object ↔ r.unwrapFrom [] t = .user object ∧ ∃ o, r.object? object = some o := by
  unfold unwrapObject?
  constructor
  · intro h
    obtain ⟨id, hid, hobject⟩ := Option.bind_eq_some_iff.1 h
    obtain ⟨o, ho, rfl⟩ := Option.map_eq_some_iff.1 hobject
    exact ⟨TypeRef.userId?_eq_some_iff.1 hid, o, ho⟩
  · rintro ⟨hend, o, ho⟩
    simp [hend, TypeRef.userId?, ho]

theorem unwrapsTo_of_unwrapObject? {r : Registry} {t : TypeRef} {object : TypeId}
    (h : r.unwrapObject? t = some object) : r.UnwrapsTo t object := by
  obtain ⟨hend, ho⟩ := unwrapObject?_eq_some.1 h
  have hsteps := unwraps_unwrapFrom r [] t
  rw [hend] at hsteps
  exact ⟨hsteps, ho⟩

end SemanticSchema.Registry
