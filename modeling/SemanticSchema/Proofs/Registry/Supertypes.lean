import SemanticSchema.Proofs.Registry.Slots
import SemanticSchema.Proofs.Registry.Unwrap
import SemanticSchema.Supertypes

/-!
# Supertypes, step by step

The depth-first walk over supertypes and the search for a way back, beside the relation that both go
along. The walk finds every type that the steps lead to, cycle or not, and the search the way back if
there is one.

* `Registry.SupertypeStep` : from a type to a supertype that it names, from an alias to its target;
* `Registry.walkUp_cons_of_unseen` : the walk goes all the way up from one type before it turns to the
  next, and leaves out what it has seen;
* `Registry.mem_walkUp_of_step` : what the walk has found is closed under steps;
* `Registry.mem_supertypes_iff`, `Registry.isAssignable_iff` : what lies above a type;
* `Registry.Missed` : what the search keeps as long as it has not come to its goal;
* `Registry.isCyclic_iff` : a type is called cyclic just when the steps lead back to it;
* `Registry.supertypes_exact` : what the walk returns, and in which order;
* `Registry.entangled` : types that inherit from each other, and one that only inherits from these.
-/

set_option autoImplicit false

namespace SemanticSchema.Registry

open Relation

/-- One step from a type to a supertype that it names, or from an alias to its target. -/
def SupertypeStep (r : Registry) (t above : TypeRef) : Prop := above ∈ r.directSupertypes t

instance (r : Registry) (t above : TypeRef) : Decidable (SupertypeStep r t above) :=
  inferInstanceAs (Decidable (above ∈ r.directSupertypes t))

variable {r : Registry} {t above goal : TypeRef} {seen pending : List TypeRef}

theorem AliasStep.supertypeStep (h : r.AliasStep t above) : r.SupertypeStep t above := by
  obtain ⟨id, rfl⟩ := h.exists_user
  obtain ⟨a, ha, htarget⟩ := Option.bind_eq_some_iff.1 h
  obtain ⟨origin, hget⟩ := typeAlias?_eq_some_iff.1 ha
  simp [SupertypeStep, directSupertypes, hget, htarget]

/-! ## The walk -/

theorem walkUp_sound (h : above ∈ r.walkUp seen pending) : ∃ p ∈ pending, ReflTransGen r.SupertypeStep p above := by
  induction seen, pending using walkUp.induct r with
  | case1 seen => rw [walkUp] at h; cases h
  | case2 seen p rest hseen ih =>
    rw [walkUp, dif_pos hseen] at h
    obtain ⟨q, hq, hsteps⟩ := ih h
    exact ⟨q, List.mem_cons_of_mem _ hq, hsteps⟩
  | case3 seen p rest hseen ih =>
    rw [walkUp, dif_neg hseen] at h
    rcases List.mem_cons.1 h with rfl | h
    · exact ⟨_, List.mem_cons_self, .refl⟩
    · obtain ⟨q, hq, hsteps⟩ := ih h
      rcases List.mem_append.1 hq with hq | hq
      · exact ⟨p, List.mem_cons_self, .head hq hsteps⟩
      · exact ⟨q, List.mem_cons_of_mem _ hq, hsteps⟩

/-- A type that is visited before the others is found itself. -/
theorem found_of_visited {p : TypeRef} {found : List TypeRef} (h : above ∈ p :: seen ∨ above ∈ found) :
    above ∈ seen ∨ above ∈ p :: found := by
  rcases h with hvisited | hfound
  · rcases List.mem_cons.1 hvisited with rfl | hvisited
    · exact Or.inr List.mem_cons_self
    · exact Or.inl hvisited
  · exact Or.inr (List.mem_cons_of_mem _ hfound)

theorem mem_walkUp_of_mem_pending (h : above ∈ pending) : above ∈ seen ∨ above ∈ r.walkUp seen pending := by
  induction seen, pending using walkUp.induct r with
  | case1 seen => cases h
  | case2 seen p rest hseen ih =>
    rw [walkUp, dif_pos hseen]
    rcases List.mem_cons.1 h with rfl | h
    · exact Or.inl hseen
    · exact ih h
  | case3 seen p rest hseen ih =>
    rw [walkUp, dif_neg hseen]
    rcases List.mem_cons.1 h with rfl | h
    · exact Or.inr List.mem_cons_self
    · exact found_of_visited (ih (List.mem_append_right _ h))

/-- What the walk has found, together with what it had seen, is closed under steps. -/
theorem mem_walkUp_of_step (h : t ∈ r.walkUp seen pending) (hstep : r.SupertypeStep t above) :
    above ∈ seen ∨ above ∈ r.walkUp seen pending := by
  induction seen, pending using walkUp.induct r with
  | case1 seen => rw [walkUp] at h; cases h
  | case2 seen p rest hseen ih =>
    rw [walkUp, dif_pos hseen] at h ⊢
    exact ih h
  | case3 seen p rest hseen ih =>
    rw [walkUp, dif_neg hseen] at h ⊢
    have hfound : above ∈ p :: seen ∨ above ∈ r.walkUp (p :: seen) (r.directSupertypes p ++ rest) := by
      rcases List.mem_cons.1 h with rfl | h
      · exact mem_walkUp_of_mem_pending (List.mem_append_left _ hstep)
      · exact ih h
    exact found_of_visited hfound

theorem notMem_seen_of_mem_walkUp (h : above ∈ r.walkUp seen pending) : above ∉ seen := by
  induction seen, pending using walkUp.induct r with
  | case1 seen => rw [walkUp] at h; cases h
  | case2 seen p rest hseen ih =>
    rw [walkUp, dif_pos hseen] at h
    exact ih h
  | case3 seen p rest hseen ih =>
    rw [walkUp, dif_neg hseen] at h
    rcases List.mem_cons.1 h with rfl | h
    · exact hseen
    · exact fun hmem => ih h (List.mem_cons_of_mem _ hmem)

theorem nodup_walkUp (r : Registry) (seen pending : List TypeRef) : (r.walkUp seen pending).Nodup := by
  induction seen, pending using walkUp.induct r with
  | case1 seen => rw [walkUp]; exact List.nodup_nil
  | case2 seen p rest hseen ih => rw [walkUp, dif_pos hseen]; exact ih
  | case3 seen p rest hseen ih =>
    rw [walkUp, dif_neg hseen]
    exact List.nodup_cons.2 ⟨fun hmem => notMem_seen_of_mem_walkUp hmem List.mem_cons_self, ih⟩

/-- A type is met as one of those that the walk was to start from, or as a supertype of one met before. -/
theorem mem_pending_or_step {before after : List TypeRef} (h : r.walkUp seen pending = before ++ above :: after) :
    above ∈ pending ∨ ∃ s ∈ before, r.SupertypeStep s above := by
  induction seen, pending using walkUp.induct r generalizing before with
  | case1 seen => rw [walkUp] at h; cases before <;> cases h
  | case2 seen p rest hseen ih =>
    rw [walkUp, dif_pos hseen] at h
    exact (ih h).imp_left (List.mem_cons_of_mem p)
  | case3 seen p rest hseen ih =>
    rw [walkUp, dif_neg hseen] at h
    cases before with
    | nil =>
      cases h
      exact Or.inl List.mem_cons_self
    | cons first before =>
      obtain ⟨rfl, hlater⟩ := List.cons.inj h
      rcases ih hlater with hmem | ⟨s, hs, hstep⟩
      · rcases List.mem_append.1 hmem with hstep | hrest
        · exact Or.inr ⟨p, List.mem_cons_self, hstep⟩
        · exact Or.inl (List.mem_cons_of_mem p hrest)
      · exact Or.inr ⟨s, List.mem_cons_of_mem p hs, hstep⟩

theorem length_walkUp_le (r : Registry) (seen pending : List TypeRef) :
    (r.walkUp seen pending).length ≤ pending.length + r.stepsLeft seen := by
  induction seen, pending using walkUp.induct r with
  | case1 seen => rw [walkUp]; exact Nat.zero_le _
  | case2 seen p rest hseen ih =>
    rw [walkUp, dif_pos hseen, List.length_cons]
    omega
  | case3 seen p rest hseen ih =>
    have hvisit := @length_directSupertypes_add_stepsLeft_le r p seen hseen
    rw [walkUp, dif_neg hseen, List.length_cons, List.length_cons]
    rw [List.length_append] at ih
    omega

/-! ## The walk from several types -/

/-- The walk through two lists is the walk through the first, and then through the second with all that
was met on the first left out. -/
theorem walkUp_append (r : Registry) (seen pending later : List TypeRef) : r.walkUp seen (pending ++ later) =
    r.walkUp seen pending ++ r.walkUp ((r.walkUp seen pending).reverse ++ seen) later := by
  -- Only the walk through `pending` is to be opened on the right, for `later` may start with the same type.
  induction seen, pending using walkUp.induct r with
  | case1 seen => rw [walkUp]; rfl
  | case2 seen p rest hseen ih =>
    rw [List.cons_append, walkUp, dif_pos hseen, ih, walkUp.eq_2 r seen p rest, dif_pos hseen]
  | case3 seen p rest hseen ih =>
    rw [List.cons_append, walkUp, dif_neg hseen, ← List.append_assoc, ih, walkUp.eq_2 r seen p rest, dif_neg hseen,
      List.reverse_cons, List.append_assoc, List.singleton_append, List.cons_append]

/-- From a type that it has not seen, the walk goes up first. It turns to the other types with everything
seen that it met above the first. -/
theorem walkUp_cons_of_unseen (h : t ∉ seen) (rest : List TypeRef) :
    let up := r.walkUp (t :: seen) (r.directSupertypes t)
    r.walkUp seen (t :: rest) = t :: (up ++ r.walkUp (up.reverse ++ t :: seen) rest) := by
  intro up
  rw [walkUp, dif_neg h, walkUp_append]

theorem mem_supertypes_of_steps (h : ReflTransGen r.SupertypeStep t above) :
    above = t ∨ above ∈ r.supertypes t := by
  induction h with
  | refl => exact Or.inl rfl
  | @tail b above _ hstep ih =>
    have hfound : above ∈ [t] ∨ above ∈ r.walkUp [t] (r.directSupertypes t) := by
      rcases ih with rfl | hmem
      · exact mem_walkUp_of_mem_pending hstep
      · exact mem_walkUp_of_step hmem hstep
    rcases hfound with hself | hfound
    · exact Or.inl (List.mem_singleton.1 hself)
    · exact Or.inr hfound

/-! ## What lies above a type -/

theorem isAssignable_iff : r.isAssignable t above = true ↔ ReflTransGen r.SupertypeStep t above := by
  unfold isAssignable
  rw [Bool.or_eq_true, beq_iff_eq, List.contains_iff_mem]
  constructor
  · rintro (rfl | hmem)
    · exact .refl
    · obtain ⟨p, hp, hsteps⟩ := walkUp_sound hmem
      exact .head hp hsteps
  · intro h
    rcases mem_supertypes_of_steps h with rfl | hmem
    · exact Or.inl rfl
    · exact Or.inr hmem

theorem mem_supertypes_iff : above ∈ r.supertypes t ↔ above ≠ t ∧ TransGen r.SupertypeStep t above := by
  constructor
  · intro h
    obtain ⟨p, hp, hsteps⟩ := walkUp_sound h
    exact ⟨fun heq => notMem_seen_of_mem_walkUp h (List.mem_singleton.2 heq), .head' hp hsteps⟩
  · rintro ⟨hne, hsteps⟩
    exact (mem_supertypes_of_steps hsteps.to_reflTransGen).resolve_left hne

theorem mem_userSupertypes_iff {id i : TypeId} : i ∈ (r.supertypes (.user id)).filterMap (·.userId?) ↔
    i ≠ id ∧ TransGen r.SupertypeStep (.user id) (.user i) := by
  rw [TypeRef.mem_userIds_iff, mem_supertypes_iff, ne_eq, TypeRef.user.injEq]

/-! ## The search -/

theorem searchUp_sound (h : r.searchUp goal seen pending = true) :
    ∃ p ∈ pending, ReflTransGen r.SupertypeStep p goal := by
  induction seen, pending using searchUp.induct r goal with
  | case1 seen => rw [searchUp] at h; cases h
  | case2 seen rest => exact ⟨goal, List.mem_cons_self, .refl⟩
  | case3 seen p rest hgoal hseen ih =>
    rw [searchUp, if_neg hgoal, dif_pos hseen] at h
    obtain ⟨q, hq, hsteps⟩ := ih h
    exact ⟨q, List.mem_cons_of_mem _ hq, hsteps⟩
  | case4 seen p rest hgoal hseen ih =>
    rw [searchUp, if_neg hgoal, dif_neg hseen] at h
    obtain ⟨q, hq, hsteps⟩ := ih h
    rcases List.mem_append.1 hq with hq | hq
    · exact ⟨p, List.mem_cons_self, .head (List.mem_reverse.1 hq) hsteps⟩
    · exact ⟨q, List.mem_cons_of_mem _ hq, hsteps⟩

/-- The goal is none of the types that were seen, and each supertype of these was seen or is on the stack
still. -/
structure Missed (r : Registry) (goal : TypeRef) (seen pending : List TypeRef) : Prop where
  unseen : goal ∉ seen
  closed : ∀ s ∈ seen, ∀ u, r.SupertypeStep s u → u ∈ seen ∨ u ∈ pending

namespace Missed

variable {p : TypeRef} {rest : List TypeRef}

theorem drop (h : r.Missed goal seen (p :: rest)) (hseen : p ∈ seen) : r.Missed goal seen rest where
  unseen := h.unseen
  closed s hs u hstep := by
    rcases h.closed s hs u hstep with hu | hu
    · exact Or.inl hu
    · rcases List.mem_cons.1 hu with rfl | hu
      · exact Or.inl hseen
      · exact Or.inr hu

theorem expand (h : r.Missed goal seen (p :: rest)) (hgoal : p ≠ goal) :
    r.Missed goal (p :: seen) ((r.directSupertypes p).reverse ++ rest) where
  unseen hmem := (List.mem_cons.1 hmem).elim (fun heq => hgoal heq.symm) h.unseen
  closed s hs u hstep := by
    rcases List.mem_cons.1 hs with rfl | hs
    · exact Or.inr (List.mem_append_left _ (List.mem_reverse.2 hstep))
    · rcases h.closed s hs u hstep with hu | hu
      · exact Or.inl (List.mem_cons_of_mem _ hu)
      · rcases List.mem_cons.1 hu with rfl | hu
        · exact Or.inl List.mem_cons_self
        · exact Or.inr (List.mem_append_right _ hu)

/-- With nothing left on the stack no way leads from what was seen to the goal. -/
theorem not_steps (h : r.Missed goal seen []) (ht : t ∈ seen) : ¬ ReflTransGen r.SupertypeStep t goal := by
  intro hsteps
  have hseen : ∀ u, ReflTransGen r.SupertypeStep t u → u ∈ seen := by
    intro u hu
    induction hu with
    | refl => exact ht
    | tail _ hstep ih => exact (h.closed _ ih _ hstep).resolve_right List.not_mem_nil
  exact h.unseen (hseen goal hsteps)

end Missed

theorem searchUp_complete (hmissed : r.Missed goal seen pending) (ht : t ∈ seen ∨ t ∈ pending)
    (hsteps : ReflTransGen r.SupertypeStep t goal) : r.searchUp goal seen pending = true := by
  -- The type that the way starts from stays among those seen or on the stack, and so the stack cannot run
  -- empty before the goal is met.
  induction seen, pending using searchUp.induct r goal with
  | case1 seen => exact absurd hsteps (hmissed.not_steps (ht.resolve_right List.not_mem_nil))
  | case2 seen rest => rw [searchUp, if_pos rfl]
  | case3 seen p rest hgoal hseen ih =>
    rw [searchUp, if_neg hgoal, dif_pos hseen]
    refine ih (hmissed.drop hseen) ?_
    rcases ht with ht | ht
    · exact Or.inl ht
    · rcases List.mem_cons.1 ht with rfl | ht
      · exact Or.inl hseen
      · exact Or.inr ht
  | case4 seen p rest hgoal hseen ih =>
    rw [searchUp, if_neg hgoal, dif_neg hseen]
    refine ih (hmissed.expand hgoal) ?_
    rcases ht with ht | ht
    · exact Or.inl (List.mem_cons_of_mem p ht)
    · rcases List.mem_cons.1 ht with rfl | ht
      · exact Or.inl List.mem_cons_self
      · exact Or.inr (List.mem_append_right _ ht)

theorem isCyclic_iff : r.isCyclic t = true ↔ TransGen r.SupertypeStep t t := by
  unfold isCyclic
  rw [TransGen.head'_iff]
  constructor
  · intro h
    obtain ⟨p, hp, hback⟩ := searchUp_sound h
    exact ⟨p, List.mem_reverse.1 hp, hback⟩
  · rintro ⟨p, hstep, hback⟩
    exact searchUp_complete ⟨List.not_mem_nil, nofun⟩ (Or.inr (List.mem_reverse.2 hstep)) hback

/-! ## What the walk returns -/

/-- The walk returns every type above a type but the type itself, each once and behind a type that names
it as a supertype. It ends with no more types than the registry names supertypes. -/
theorem supertypes_exact (r : Registry) (t : TypeRef) :
    (r.supertypes t).Nodup ∧
    (∀ u, u ∈ r.supertypes t ↔ u ≠ t ∧ TransGen r.SupertypeStep t u) ∧
    (∀ before u after, r.supertypes t = before ++ u :: after → ∃ s ∈ t :: before, r.SupertypeStep s u) ∧
    (r.supertypes t).length ≤ r.stepsLeft [] := by
  refine ⟨r.nodup_walkUp _ _, fun u => mem_supertypes_iff, ?_, ?_⟩
  · intro before u after h
    rcases mem_pending_or_step h with hstep | ⟨s, hs, hstep⟩
    · exact ⟨t, List.mem_cons_self, hstep⟩
    · exact ⟨s, List.mem_cons_of_mem t hs, hstep⟩
  · calc (r.supertypes t).length
      _ ≤ (r.directSupertypes t).length + r.stepsLeft [t] := r.length_walkUp_le [t] (r.directSupertypes t)
      _ ≤ r.stepsLeft [] := length_directSupertypes_add_stepsLeft_le List.not_mem_nil

/-- An order that inherits from an entity, once by an alias and once by an enum, while the entity inherits
from the order; and a refund that inherits from the order. -/
def entangled : Registry :=
  let field (name : String) : Field := { name := name, type := .primitive .string }
  let order : ObjectDefinition :=
    { fields := [field "total"], inherits := [.user ⟨1⟩, .user ⟨2⟩], span := ⟨0, 10, 50, 2⟩ }
  let status : EnumDefinition := { members := [], inherits := [.user ⟨3⟩], span := ⟨0, 80, 100, 4⟩ }
  let entity : ObjectDefinition := { fields := [field "id"], inherits := [.user ⟨0⟩], span := ⟨0, 100, 130, 5⟩ }
  let refund : ObjectDefinition := { fields := [field "reason"], inherits := [.user ⟨0⟩], span := ⟨0, 130, 160, 6⟩ }
  { records := [
      ⟨.object (.defined (.ofParts "pay" "Order") order), .unknown⟩,
      ⟨.typeAlias (.defined (.ofParts "pay" "Base") { target := .user ⟨3⟩ }), .unknown⟩,
      ⟨.enum (.defined (.ofParts "pay" "Status") status), .unknown⟩,
      ⟨.object (.defined (.ofParts "pay" "Entity") entity), .unknown⟩,
      ⟨.object (.defined (.ofParts "pay" "Refund") refund), .unknown⟩] }

/-- The walk up from the order comes to the entity by the alias, and stops at the order. -/
theorem supertypes_exact_entangled :
    entangled.supertypes (.user ⟨0⟩) = [.user ⟨1⟩, .user ⟨3⟩, .user ⟨2⟩] ∧
      TransGen entangled.SupertypeStep (.user ⟨0⟩) (.user ⟨3⟩) ∧
      ∃ s ∈ [.user ⟨0⟩, .user ⟨1⟩, .user ⟨3⟩], entangled.SupertypeStep s (.user ⟨2⟩) := by
  have hwalk : entangled.supertypes (.user ⟨0⟩) = [.user ⟨1⟩, .user ⟨3⟩, .user ⟨2⟩] := by decide +kernel
  obtain ⟨-, hmem, horder, -⟩ := supertypes_exact entangled (.user ⟨0⟩)
  exact ⟨hwalk, ((hmem (.user ⟨3⟩)).1 (by rw [hwalk]; decide)).2, horder [.user ⟨1⟩, .user ⟨3⟩] _ [] hwalk⟩

end SemanticSchema.Registry
