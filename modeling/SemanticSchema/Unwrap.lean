import SemanticSchema.Supertypes

/-!
# Behind aliases and arrays

What a reference comes to when aliases are replaced by their targets and arrays by their members.

* `Registry.aliasTarget?` : the target of an alias;
* `Registry.underlying` : the end of a chain of aliases; on a cycle, the last alias before the chain
  would repeat itself;
* `Registry.unwrapRound` : a type without its array layers, and without the aliases behind these;
* `Registry.unwrapFrom` : round after round, until a type comes back;
* `Registry.unwrapObject?` : the object type behind any layers of aliases and arrays;
* `Registry.isExternal` : whether the member of a type is an imported type or an alias of one.
-/

set_option autoImplicit false

namespace SemanticSchema.Registry

/-- The target of a reference to an alias. -/
def aliasTarget? (r : Registry) : TypeRef → Option TypeRef
  | .user id => (r.typeAlias? id).bind (·.target?)
  | _ => none

theorem slot_lt_size_of_aliasTarget? {r : Registry} {id : TypeId} {t : TypeRef}
    (h : r.aliasTarget? (.user id) = some t) : id.slot < r.size := by
  rcases Nat.lt_or_ge id.slot r.size with hlt | hge
  · exact hlt
  · have : r.get? id = none := List.getElem?_eq_none hge
    simp [aliasTarget?, typeAlias?, this] at h

/-- The slots that a walk along aliases has not passed. -/
def aliasStepsLeft (r : Registry) (seen : List TypeId) : Nat :=
  unvisitedWeight (fun _ => 1) (fun i => seen.contains ⟨i⟩) r.size

theorem aliasStepsLeft_lt {r : Registry} {id : TypeId} {t : TypeRef} {seen : List TypeId}
    (ht : r.aliasTarget? (.user id) = some t) (h : id ∉ seen) :
    r.aliasStepsLeft (id :: seen) < r.aliasStepsLeft seen := by
  have hmono : ∀ j, seen.contains (⟨j⟩ : TypeId) = true →
      (id :: seen).contains (⟨j⟩ : TypeId) = true := by
    intro j hj
    simp only [List.contains_cons, hj, Bool.or_true]
  have hvisit := @unvisitedWeight_visit (fun _ => 1) _ _ _ id.slot hmono
    (slot_lt_size_of_aliasTarget? ht) (by simpa using h) (by simp)
  unfold aliasStepsLeft
  omega

/-- Follows aliases, `seen` being those that were passed. -/
def followAliases (r : Registry) (seen : List TypeId) : TypeRef → TypeRef
  | .user id =>
    match _ht : r.aliasTarget? (.user id) with
    | none => .user id
    | some next =>
      if _h : id ∈ seen then .user id
      else if (next.userId?.any (id :: seen).contains) then .user id
      else followAliases r (id :: seen) next
  | t => t
termination_by r.aliasStepsLeft seen
decreasing_by exact aliasStepsLeft_lt _ht _h

/-- The end of a chain of aliases. -/
def underlying (r : Registry) (t : TypeRef) : TypeRef := r.followAliases [] t

theorem followAliases_of_no_target {r : Registry} {t : TypeRef} (seen : List TypeId)
    (h : r.aliasTarget? t = none) : r.followAliases seen t = t := by
  unfold followAliases
  split
  · split
    · rfl
    · next hsome => rw [h] at hsome; cases hsome
  · rfl

/-- The type behind the array layers of a type, and behind the aliases that follow on these. -/
def unwrapRound (r : Registry) (t : TypeRef) : TypeRef := r.underlying t.member

/-! ## Rounds -/

/-- Whether a chain of aliases that starts in some slot ends in a type. -/
def isChainEnd (r : Registry) (t : TypeRef) : Bool :=
  (List.range r.size).any fun i => r.underlying (.user ⟨i⟩) == t

/-- The rounds that are left to take: a type that some chain of aliases ends in is passed once, and at
most two others are passed, the first of all and its member. -/
def roundsLeft (r : Registry) (seen : List TypeRef) (t : TypeRef) : Nat :=
  unvisitedWeight (fun _ => 3) (fun i => seen.contains (r.underlying (.user ⟨i⟩))) r.size +
    if t ∈ seen ∨ r.isChainEnd t = true then 0 else if t.member = t then 1 else 2

theorem roundsLeft_lt {r : Registry} {seen : List TypeRef} {t : TypeRef} (h : t ∉ seen) :
    r.roundsLeft (t :: seen) (r.unwrapRound t) < r.roundsLeft seen t := by
  have hmono : ∀ j, seen.contains (r.underlying (.user ⟨j⟩)) = true →
      (t :: seen).contains (r.underlying (.user ⟨j⟩)) = true := by
    intro j hj
    simp only [List.contains_cons, hj, Bool.or_true]
  have hle := @unvisitedWeight_mono (fun _ => 3) _ _ r.size hmono
  unfold roundsLeft
  by_cases hend : r.isChainEnd t = true
  · -- One more end of a chain is passed, which outweighs whatever comes next.
    obtain ⟨i, hi, hlast⟩ := List.any_eq_true.1 hend
    have hsame : r.underlying (.user ⟨i⟩) = t := by simpa using hlast
    have hvisit := @unvisitedWeight_visit (fun _ => 3) _ _ _ i hmono (List.mem_range.1 hi)
      (by simpa [hsame] using h) (by simp [hsame])
    rw [if_pos (Or.inr hend)]
    split
    · omega
    · split <;> omega
  · rw [if_neg (not_or.2 ⟨h, hend⟩)]
    cases htarget : r.aliasTarget? t.member with
    | some next =>
      have hnext : r.isChainEnd (r.unwrapRound t) = true := by
        cases hm : t.member with
        | user id =>
          rw [hm] at htarget
          refine List.any_eq_true.2 ⟨id.slot, List.mem_range.2 (slot_lt_size_of_aliasTarget? htarget), ?_⟩
          simp [unwrapRound, hm]
        | primitive p => rw [hm] at htarget; cases htarget
        | void => rw [hm] at htarget; cases htarget
        | array m => rw [hm] at htarget; cases htarget
        | imported name => rw [hm] at htarget; cases htarget
      rw [if_pos (Or.inr hnext)]
      split <;> omega
    | none =>
      have hround : r.unwrapRound t = t.member := followAliases_of_no_target [] htarget
      rw [hround]
      by_cases hm : t.member = t
      · rw [if_pos (Or.inl (by rw [hm]; exact List.mem_cons_self)), if_pos hm]
        omega
      · rw [if_neg hm, if_pos t.member_member]
        split <;> omega

/-- Takes array layers and aliases off a type, round after round, until a type comes back; `seen` are
the types that were passed. -/
def unwrapFrom (r : Registry) (seen : List TypeRef) (t : TypeRef) : TypeRef :=
  if _h : t ∈ seen then t else unwrapFrom r (t :: seen) (r.unwrapRound t)
termination_by r.roundsLeft seen t
decreasing_by exact roundsLeft_lt _h

/-- The object type behind any layers of aliases and arrays. -/
def unwrapObject? (r : Registry) (t : TypeRef) : Option TypeId :=
  (r.unwrapFrom [] t).userId?.bind fun id => (r.object? id).map fun _ => id

/-- Whether the member of a type is an imported type or an alias of one. -/
def isExternal (r : Registry) (t : TypeRef) : Bool :=
  match r.underlying t.member with
  | .imported _ => true
  | _ => false

end SemanticSchema.Registry
