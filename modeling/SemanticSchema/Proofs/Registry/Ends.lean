import Mathlib.Logic.Function.Iterate
import SemanticSchema.Proofs.Registry.Slots
import SemanticSchema.Proofs.Registry.Unwrap

/-!
# Where aliases and arrays end

There is one way only behind aliases and arrays. If it ends, it never comes back to a type that it
has passed, so the walks, which stop where a type repeats, go all the way.

* `not_transGen_of_ends` : where steps are unique, no cycle leads to an end;
* `eq_of_stops`, `eq_of_ends` : a walk that stops at an end or on a cycle only finds the end if there is
  one, and so there is one end only;
* `Registry.unwrapObject?_eq_some_iff` : an object type is found behind a type just when the steps lead to it;
* `Registry.unwrapping_exact` : what unwrapping finds, after how many rounds, and for which types it is the same;
* `Registry.layered` : a type under several layers, and aliases that lead back to each other;
* `Registry.aliasStep_underlying_iff` : a chain of aliases ends in an alias just when it runs into a cycle;
* `Registry.isExternal_iff` : a type is taken for external just when its member is an imported type or an
  alias of one (`Registry.AliasesImport`).
-/

set_option autoImplicit false

namespace SemanticSchema

open Relation

section Unique

variable {α : Type} {R : α → α → Prop} {a e e' : α}

theorem not_transGen_of_ends (hunique : Relator.RightUnique R) (h : ReflTransGen R a e) (hend : ∀ b, ¬ R e b) :
    ¬ TransGen R a a := by
  induction h using ReflTransGen.head_induction_on with
  | refl =>
    intro hcycle
    obtain ⟨b, hstep, -⟩ := TransGen.head'_iff.1 hcycle
    exact hend b hstep
  | head hstep _ ih =>
    intro hcycle
    obtain ⟨b, hstep', hback⟩ := TransGen.head'_iff.1 hcycle
    obtain rfl := hunique hstep hstep'
    exact ih (.tail' hback hstep)

/-- A walk that stops only where there is no step, or where the steps come back, goes on to the end. -/
theorem eq_of_stops (hunique : Relator.RightUnique R) (hwalk : ReflTransGen R a e')
    (hstop : ∀ b, R e' b → TransGen R e' e') (h : ReflTransGen R a e) (hend : ∀ b, ¬ R e b) : e' = e := by
  rcases ReflTransGen.total_of_right_unique hunique hwalk h with hrest | hback
  · rcases hrest.cases_head with hsame | ⟨b, hstep, -⟩
    · exact hsame
    · exact absurd (hstop b hstep) (not_transGen_of_ends hunique hrest hend)
  · exact (reflTransGen_iff_eq hend).1 hback

theorem eq_of_ends (hunique : Relator.RightUnique R) (h : ReflTransGen R a e) (hend : ∀ b, ¬ R e b)
    (h' : ReflTransGen R a e') (hend' : ∀ b, ¬ R e' b) : e = e' :=
  eq_of_stops hunique h (fun b hstep => absurd hstep (hend b)) h' hend'

end Unique

namespace Registry

variable {r : Registry} {t e next : TypeRef} {id object : TypeId} {seen : List TypeId} {passed : List TypeRef}

theorem unwrapStep_rightUnique (r : Registry) : Relator.RightUnique r.UnwrapStep := by
  intro t next next' h h'
  cases h with
  | member m =>
    cases h'
    rfl
  | target htarget =>
    cases h' with
    | target htarget' => exact Option.some.inj (htarget.symm.trans htarget')

theorem aliasStep_rightUnique (r : Registry) : Relator.RightUnique r.AliasStep :=
  fun _ _ _ h h' => Option.some.inj (h.symm.trans h')

theorem not_unwrapStep_imported {name : QualifiedName} : ¬ r.UnwrapStep (.imported name) next := nofun

theorem not_aliasStep_of_no_target (h : r.aliasTarget? e = none) : ¬ r.AliasStep e next :=
  fun hstep => nomatch h.symm.trans hstep

/-! ## Chains of aliases -/

theorem any_userId?_iff {ids : List TypeId} : t.userId?.any ids.contains = true ↔ ∃ id ∈ ids, t = .user id := by
  cases t <;> simp [TypeRef.userId?]

/-- Where the walk stops at an alias, the chain would come back to it. -/
theorem cycle_of_followAliases (hseen : ∀ id ∈ seen, TransGen r.AliasStep (.user id) t)
    (h : r.AliasStep (r.followAliases seen t) next) :
    TransGen r.AliasStep (r.followAliases seen t) (r.followAliases seen t) := by
  induction seen, t using followAliases.induct r with
  | case1 seen id htarget =>
    rw [followAliases_of_no_target seen htarget] at h
    exact absurd h (not_aliasStep_of_no_target htarget)
  | case2 seen id target htarget hid =>
    rw [followAliases_of_target seen htarget, if_pos hid]
    exact hseen id hid
  | case3 seen id target htarget hid hback =>
    rw [followAliases_of_target seen htarget, if_neg hid, if_pos hback]
    obtain ⟨j, hj, rfl⟩ := any_userId?_iff.1 hback
    rcases List.mem_cons.1 hj with rfl | hj
    · exact .single htarget
    · exact .head htarget (hseen j hj)
  | case4 seen id target htarget hid hback ih =>
    rw [followAliases_of_target seen htarget, if_neg hid, if_neg hback] at h ⊢
    refine ih (fun j hj => ?_) h
    rcases List.mem_cons.1 hj with rfl | hj
    · exact .single htarget
    · exact (hseen j hj).tail htarget
  | case5 seen t hleaf =>
    rw [followAliases.eq_2 r seen t hleaf] at h
    obtain ⟨id, rfl⟩ := h.exists_user
    exact absurd rfl (hleaf id)

theorem underlying_of_ends (hsteps : ReflTransGen r.AliasStep t e) (hend : r.aliasTarget? e = none) :
    r.underlying t = e :=
  eq_of_stops (aliasStep_rightUnique r) (aliases_followAliases r [] t) (fun _ => cycle_of_followAliases nofun)
    hsteps fun _ => not_aliasStep_of_no_target hend

/-- A chain of aliases ends in an alias just when it runs into a cycle. -/
theorem aliasStep_underlying_iff : (∃ next, r.AliasStep (r.underlying t) next) ↔
    ∃ u, ReflTransGen r.AliasStep t u ∧ TransGen r.AliasStep u u := by
  have hwalk : ReflTransGen r.AliasStep t (r.underlying t) := aliases_followAliases r [] t
  constructor
  · rintro ⟨next, h⟩
    exact ⟨r.underlying t, hwalk, cycle_of_followAliases nofun h⟩
  · rintro ⟨u, hsteps, hcycle⟩
    obtain ⟨next, hnext, -⟩ := TransGen.head'_iff.1 hcycle
    rcases ReflTransGen.total_of_right_unique (aliasStep_rightUnique r) hwalk hsteps with hu | hu
    · rcases hu.cases_head with hsame | ⟨after, hafter, -⟩
      · exact ⟨next, hsame ▸ hnext⟩
      · exact ⟨after, hafter⟩
    · refine Classical.byContradiction fun hnone => ?_
      have hend : ∀ next, ¬ r.AliasStep (r.underlying t) next := fun next hstep => hnone ⟨next, hstep⟩
      exact not_transGen_of_ends (aliasStep_rightUnique r) hu hend hcycle

/-! ## Rounds -/

/-- A round takes at least one step, if there is one to take. -/
theorem transGen_unwrapRound (h : r.UnwrapStep t next) : TransGen r.UnwrapStep t (r.unwrapRound t) := by
  cases h with
  | member m =>
    have hmember : ReflTransGen r.UnwrapStep next next.member := unwraps_member r next
    exact .head' (.member next) (hmember.trans (unwraps_followAliases r [] next.member))
  | @target id next htarget =>
    have hround : r.unwrapRound (.user id) = r.followAliases [] (.user id) := rfl
    rw [hround, followAliases_of_target [] htarget, if_neg List.not_mem_nil]
    split_ifs with hback
    · obtain ⟨j, hj, rfl⟩ := any_userId?_iff.1 hback
      rw [List.mem_singleton.1 hj] at htarget
      exact .single (.target htarget)
    · exact .head' (.target htarget) (unwraps_followAliases r [id] next)

/-- Where the rounds stop at an array or an alias, the steps would come back to it. -/
theorem cycle_of_unwrapFrom
    (hseen : ∀ s ∈ passed, ∀ u, r.UnwrapStep s u → TransGen r.UnwrapStep s t)
    (h : r.UnwrapStep (r.unwrapFrom passed t) next) :
    TransGen r.UnwrapStep (r.unwrapFrom passed t) (r.unwrapFrom passed t) := by
  induction passed, t using unwrapFrom.induct r with
  | case1 seen t hmem =>
    rw [unwrapFrom, dif_pos hmem] at h ⊢
    exact hseen t hmem next h
  | case2 seen t hnew ih =>
    rw [unwrapFrom, dif_neg hnew] at h ⊢
    refine ih (fun s hs u hu => ?_) h
    rcases List.mem_cons.1 hs with rfl | hs
    · exact transGen_unwrapRound hu
    · exact (hseen s hs u hu).trans_left (unwraps_unwrapRound r t)

theorem unwrapFrom_of_ends (hsteps : ReflTransGen r.UnwrapStep t e) (hend : ∀ next, ¬ r.UnwrapStep e next) :
    r.unwrapFrom [] t = e := by
  have hnone : ∀ s ∈ ([] : List TypeRef), ∀ u, r.UnwrapStep s u → TransGen r.UnwrapStep s t := by
    intro s hs
    cases hs
  exact eq_of_stops (unwrapStep_rightUnique r) (unwraps_unwrapFrom r [] t) (fun _ => cycle_of_unwrapFrom hnone)
    hsteps hend

/-! ## Object types -/

theorem aliasTarget?_of_object {o : ObjectType} (h : r.object? object = some o) :
    r.aliasTarget? (.user object) = none := by
  obtain ⟨origin, hget⟩ := object?_eq_some_iff.1 h
  simp [aliasTarget?, typeAlias?, hget]

theorem not_unwrapStep_of_object {o : ObjectType} (h : r.object? object = some o) :
    ¬ r.UnwrapStep (.user object) next := by
  intro hstep
  cases hstep with
  | target htarget => rw [aliasTarget?_of_object h] at htarget; cases htarget

theorem unwrapObject?_eq_some_iff : r.unwrapObject? t = some object ↔ r.UnwrapsTo t object := by
  refine ⟨unwrapsTo_of_unwrapObject?, fun h => ?_⟩
  obtain ⟨hsteps, o, ho⟩ := h
  have hend : r.unwrapFrom [] t = .user object := unwrapFrom_of_ends hsteps fun _ => not_unwrapStep_of_object ho
  exact unwrapObject?_eq_some.2 ⟨hend, o, ho⟩

theorem not_unwrapsTo_of_endsInImport (himport : r.EndsInImport t) : ¬ r.UnwrapsTo t object := by
  rintro ⟨hobject, o, ho⟩
  obtain ⟨name, hname⟩ := himport
  have hsame : TypeRef.imported name = .user object :=
    eq_of_ends (unwrapStep_rightUnique r) hname (fun _ => not_unwrapStep_imported) hobject
      (fun _ => not_unwrapStep_of_object ho)
  cases hsame

theorem unwrapObject?_of_endsInImport (himport : r.EndsInImport t) : r.unwrapObject? t = none := by
  cases h : r.unwrapObject? t with
  | none => rfl
  | some object => exact absurd (unwrapObject?_eq_some_iff.1 h) (not_unwrapsTo_of_endsInImport himport)

/-! ## What unwrapping comes to -/

/-- The rounds end, and they end where a type comes back. -/
theorem exists_rounds (r : Registry) (passed : List TypeRef) (t : TypeRef) :
    ∃ n ≤ r.roundsLeft passed t, r.unwrapFrom passed t = r.unwrapRound^[n] t ∧
      (r.unwrapRound^[n] t ∈ passed ∨ ∃ k < n, r.unwrapRound^[k] t = r.unwrapRound^[n] t) := by
  induction passed, t using unwrapFrom.induct r with
  | case1 passed t hmem =>
    rw [unwrapFrom, dif_pos hmem]
    exact ⟨0, Nat.zero_le _, rfl, Or.inl hmem⟩
  | case2 passed t hnew ih =>
    rw [unwrapFrom, dif_neg hnew]
    obtain ⟨n, hn, hend, hback⟩ := ih
    have hleft : r.roundsLeft (t :: passed) (r.unwrapRound t) < r.roundsLeft passed t := roundsLeft_lt hnew
    refine ⟨n + 1, by omega, hend, ?_⟩
    rw [Function.iterate_succ_apply]
    rcases hback with hmem | ⟨k, hk, hsame⟩
    · rcases List.mem_cons.1 hmem with hfirst | hmem
      · exact Or.inr ⟨0, Nat.succ_pos n, hfirst.symm⟩
      · exact Or.inl hmem
    · exact Or.inr ⟨k + 1, Nat.succ_lt_succ hk, hsame⟩

theorem roundsLeft_le (r : Registry) (passed : List TypeRef) (t : TypeRef) :
    r.roundsLeft passed t ≤ 3 * r.size + 2 := by
  have hends := @unvisitedWeight_le 3 (fun i => passed.contains (r.underlying (.user ⟨i⟩))) r.size
  unfold roundsLeft
  split
  · omega
  · split <;> omega

theorem unwrapObject?_of_steps {u : TypeRef} (h : ReflTransGen r.UnwrapStep u t) :
    r.unwrapObject? u = r.unwrapObject? t := by
  refine Option.ext fun object => ?_
  rw [unwrapObject?_eq_some_iff, unwrapObject?_eq_some_iff]
  constructor
  · rintro ⟨hsteps, o, ho⟩
    have hend : ∀ next, ¬ r.UnwrapStep (.user object) next := fun _ => not_unwrapStep_of_object ho
    rcases ReflTransGen.total_of_right_unique (unwrapStep_rightUnique r) h hsteps with hrest | hback
    · exact ⟨hrest, o, ho⟩
    · rw [(reflTransGen_iff_eq hend).1 hback]
      exact ⟨.refl, o, ho⟩
  · exact fun hobject => ⟨h.trans hobject.1, hobject.2⟩

theorem unwrapObject?_eq_none_iff : r.unwrapObject? t = none ↔
    (∃ e, ReflTransGen r.UnwrapStep t e ∧ (∀ next, ¬ r.UnwrapStep e next) ∧
      ∀ object, e = .user object → r.object? object = none) ∨
    ∀ e, ReflTransGen r.UnwrapStep t e → ∃ next, r.UnwrapStep e next := by
  constructor
  · intro hnone
    by_cases hends : ∃ e, ReflTransGen r.UnwrapStep t e ∧ ∀ next, ¬ r.UnwrapStep e next
    · obtain ⟨e, hsteps, hend⟩ := hends
      refine Or.inl ⟨e, hsteps, hend, fun object he => ?_⟩
      by_contra ho
      have hsome := unwrapObject?_eq_some_iff.2 ⟨he ▸ hsteps, Option.ne_none_iff_exists'.1 ho⟩
      rw [hnone] at hsome
      cases hsome
    · refine Or.inr fun e hsteps => ?_
      by_contra hnext
      exact hends ⟨e, hsteps, not_exists.1 hnext⟩
  · intro h
    cases hobject : r.unwrapObject? t with
    | none => rfl
    | some object =>
      obtain ⟨hsteps, o, ho⟩ := unwrapObject?_eq_some_iff.1 hobject
      have hlast : ∀ next, ¬ r.UnwrapStep (.user object) next := fun _ => not_unwrapStep_of_object ho
      rcases h with ⟨e, hsteps', hend, hno⟩ | hendless
      · have hsame : e = .user object := eq_of_ends (unwrapStep_rightUnique r) hsteps' hend hsteps hlast
        rw [hno object hsame] at ho
        cases ho
      · obtain ⟨next, hstep⟩ := hendless _ hsteps
        exact absurd hstep (hlast next)

/-- Unwrapping ends with the first type that comes back, after a number of rounds that the size of the
registry bounds. It finds an object type just when members and targets, taken one by one, lead to it, and
none when they lead to a type of another kind or go on for ever. So a type, the arrays of it and its
aliases unwrap to the same. -/
theorem unwrapping_exact (r : Registry) (t : TypeRef) :
    (∃ n ≤ 3 * r.size + 2, r.unwrapFrom [] t = r.unwrapRound^[n] t ∧
      ∃ k < n, r.unwrapRound^[k] t = r.unwrapRound^[n] t) ∧
    (∀ object, r.unwrapObject? t = some object ↔
      ReflTransGen r.UnwrapStep t (.user object) ∧ ∃ o, r.object? object = some o) ∧
    (r.unwrapObject? t = none ↔
      (∃ e, ReflTransGen r.UnwrapStep t e ∧ (∀ next, ¬ r.UnwrapStep e next) ∧
        ∀ object, e = .user object → r.object? object = none) ∨
      ∀ e, ReflTransGen r.UnwrapStep t e → ∃ next, r.UnwrapStep e next) ∧
    r.unwrapObject? (.array t) = r.unwrapObject? t ∧
    ∀ a, ReflTransGen r.AliasStep a t → r.unwrapObject? a = r.unwrapObject? t := by
  refine ⟨?_, fun object => unwrapObject?_eq_some_iff, unwrapObject?_eq_none_iff, ?_, fun a h => ?_⟩
  · obtain ⟨n, hn, hend, hback⟩ := r.exists_rounds [] t
    exact ⟨n, Nat.le_trans hn (r.roundsLeft_le [] t), hend, hback.resolve_left List.not_mem_nil⟩
  · exact unwrapObject?_of_steps (.single (.member t))
  · exact unwrapObject?_of_steps (ReflTransGen.mono (fun _ _ => AliasStep.unwrapStep) a t h)

/-- An amount under a price list of prices, and two aliases that stand for each other under a third. -/
def layered : Registry :=
  let standsFor (name : String) (target : TypeRef) : Record :=
    ⟨.typeAlias (.defined (.ofParts "pay" name) { target := target }), .unknown⟩
  { records := [
      ⟨.object (.defined (.ofParts "pay" "Amount") { fields := [] }), .unknown⟩,
      standsFor "Price" (.user ⟨0⟩),
      standsFor "Prices" (.array (.user ⟨1⟩)),
      standsFor "PriceList" (.array (.user ⟨2⟩)),
      standsFor "Total" (.user ⟨5⟩),
      standsFor "Sum" (.user ⟨6⟩),
      standsFor "Balance" (.user ⟨5⟩)] }

/-- The amount is found behind all layers, and nothing behind the aliases that lead back to each other. -/
theorem unwrapping_exact_layered :
    ReflTransGen layered.AliasStep (.user ⟨4⟩) (.user ⟨6⟩) ∧
      layered.unwrapObject? (.array (.user ⟨3⟩)) = some ⟨0⟩ ∧ layered.unwrapObject? (.user ⟨4⟩) = none ∧
      layered.unwrapFrom [] (.user ⟨4⟩) = .user ⟨6⟩ := by
  have hloop : ReflTransGen layered.AliasStep (.user ⟨4⟩) (.user ⟨6⟩) :=
    .head (b := .user ⟨5⟩) (by decide +kernel) (.single (by decide +kernel))
  have hlist : layered.unwrapObject? (.user ⟨3⟩) = some ⟨0⟩ := by decide +kernel
  have hnone : layered.unwrapObject? (.user ⟨6⟩) = none := by decide +kernel
  obtain ⟨-, -, -, harray, -⟩ := unwrapping_exact layered (.user ⟨3⟩)
  obtain ⟨-, -, -, -, halias⟩ := unwrapping_exact layered (.user ⟨6⟩)
  exact ⟨hloop, harray.trans hlist, (halias _ hloop).trans hnone, by decide +kernel⟩

/-! ## Imported types -/

/-- Whether a type is imported, or an alias of an imported type. -/
def AliasesImport (r : Registry) (t : TypeRef) : Prop :=
  ∃ name, ReflTransGen r.AliasStep t (.imported name)

theorem isExternal_iff : r.isExternal t = true ↔ r.AliasesImport t.member := by
  constructor
  · intro h
    have hsteps : ReflTransGen r.AliasStep t.member (r.underlying t.member) := aliases_followAliases r [] t.member
    unfold isExternal at h
    split at h
    · next name hend => exact ⟨name, hend ▸ hsteps⟩
    · cases h
  · rintro ⟨name, hsteps⟩
    unfold isExternal
    rw [underlying_of_ends hsteps rfl]

theorem isExternal_of_unwrapsTo (h : r.UnwrapsTo t object) : r.isExternal t = false := by
  cases hexternal : r.isExternal t with
  | false => rfl
  | true => exact absurd h (not_unwrapsTo_of_endsInImport (endsInImport_of_isExternal hexternal))

end Registry

end SemanticSchema
