/-!
# Weights of unvisited slots

A walk over numbered slots enters each slot at most once. What it has still to do is bounded by the
weights of the slots that it has not entered, which is why it ends.

* `unvisitedWeight` : the weights of the slots below a bound that are not visited, added up;
* `unvisitedWeight_visit` : visiting one more slot gives up its weight;
* `unvisitedWeight_le` : what there is at most to do, if all slots weigh the same.
-/

set_option autoImplicit false

namespace SemanticSchema

/-- The sum of the weights of the slots below `n` that are not visited. -/
def unvisitedWeight (weight : Nat → Nat) (visited : Nat → Bool) : Nat → Nat
  | 0 => 0
  | n + 1 => unvisitedWeight weight visited n + if visited n then 0 else weight n

theorem unvisitedWeight_mono {weight : Nat → Nat} {p q : Nat → Bool} {n : Nat}
    (h : ∀ j, p j = true → q j = true) :
    unvisitedWeight weight q n ≤ unvisitedWeight weight p n := by
  induction n with
  | zero => exact Nat.le_refl _
  | succ n ih =>
    simp only [unvisitedWeight]
    cases hp : p n with
    | false => split <;> simp <;> omega
    | true => simp [h n hp]; exact ih

theorem unvisitedWeight_le {k : Nat} (p : Nat → Bool) (n : Nat) : unvisitedWeight (fun _ => k) p n ≤ k * n := by
  induction n with
  | zero => exact Nat.zero_le _
  | succ n ih =>
    have hslot : (if p n = true then 0 else k) ≤ k := by split <;> omega
    calc unvisitedWeight (fun _ => k) p n + (if p n = true then 0 else k)
      _ ≤ k * n + k := Nat.add_le_add ih hslot
      _ = k * (n + 1) := (Nat.mul_succ k n).symm

/-- Visiting slot `i` gives up its weight. -/
theorem unvisitedWeight_visit {weight : Nat → Nat} {p q : Nat → Bool} {n i : Nat}
    (h : ∀ j, p j = true → q j = true) (hi : i < n) (hp : p i = false) (hq : q i = true) :
    weight i + unvisitedWeight weight q n ≤ unvisitedWeight weight p n := by
  induction n with
  | zero => omega
  | succ n ih =>
    simp only [unvisitedWeight]
    by_cases hin : i = n
    · subst hin
      have := @unvisitedWeight_mono weight p q i h
      simp [hp, hq]
      omega
    · have hrest := ih (by omega)
      cases hpn : p n with
      | false => split <;> simp <;> omega
      | true => simp [h n hpn]; exact hrest

end SemanticSchema
