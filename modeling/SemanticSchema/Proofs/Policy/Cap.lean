import Mathlib.Data.List.Permutation
import SemanticSchema.Policy

/-!
# What the cap keeps

A list of reports that is too long is sorted by gravity and cut. With its place in the order of report
beside each report no two of them tie, so what is kept and what is dropped are the two ends of one list in a
strict order.

* `Policy.Precedes` : which of two reports is kept before the other;
* `Policy.ranked` : the reports in this order, each with its place; the sort by gravity forgets the places;
* `Policy.pairwise_ranked` : there are no ties;
* `Policy.cap_keeps_gravest` : which reports are kept, in which order, and what becomes of them.
-/

set_option autoImplicit false

namespace SemanticSchema

theorem Severity.rank_inj {s s' : Severity} : s.rank = s'.rank ↔ s = s' := by
  cases s <;> cases s' <;> decide

/-- Nothing is graver than an error. -/
theorem Severity.eq_error_of_rank_le {s : Severity} (h : Severity.error.rank ≤ s.rank) : s = .error := by
  revert h
  cases s <;> decide

namespace Policy

variable {ds : List Diagnostic} {a b : Diagnostic × Nat}

/-! ## The order of the reports -/

/-- Whether one report is kept before another, each given with its place in the order of report: it is
graver, or as grave and reported earlier. -/
def Precedes (a b : Diagnostic × Nat) : Prop :=
  b.1.severity.rank < a.1.severity.rank ∨ a.1.severity = b.1.severity ∧ a.2 < b.2

theorem Precedes.rank_le (h : Precedes a b) : b.1.severity.rank ≤ a.1.severity.rank := by
  rcases h with hgraver | ⟨hequal, -⟩
  · exact Nat.le_of_lt hgraver
  · exact Nat.le_of_eq (congrArg Severity.rank hequal.symm)

theorem Precedes.earlier (h : Precedes a b) (hequal : a.1.severity = b.1.severity) : a.2 < b.2 := by
  rcases h with hgraver | ⟨-, hearlier⟩
  · exact absurd (Severity.rank_inj.2 hequal) (Nat.ne_of_gt hgraver)
  · exact hearlier

/-- The reports with their places, in the order in which they are kept. -/
def ranked (ds : List Diagnostic) : List (Diagnostic × Nat) :=
  ds.zipIdx.mergeSort (List.zipIdxLE fun a b => b.severity.rank ≤ a.severity.rank)

theorem map_fst_ranked (ds : List Diagnostic) : (ranked ds).map Prod.fst = byGravity ds := List.mergeSort_zipIdx

theorem ranked_perm (ds : List Diagnostic) : (ranked ds).Perm ds.zipIdx := List.mergeSort_perm ..

theorem map_fst_ranked_perm (ds : List Diagnostic) : ((ranked ds).map Prod.fst).Perm ds := by
  rw [map_fst_ranked]
  exact List.mergeSort_perm ..

theorem length_ranked (ds : List Diagnostic) : (ranked ds).length = ds.length := by
  rw [(ranked_perm ds).length_eq, List.length_zipIdx]

theorem precedes_of_zipIdxLE (hle : List.zipIdxLE (fun a b => decide (b.severity.rank ≤ a.severity.rank)) a b = true)
    (hplace : a.2 ≠ b.2) : Precedes a b := by
  simp only [List.zipIdxLE, decide_eq_true_eq] at hle
  split at hle
  · next hab =>
    split at hle
    · next hba =>
      have hearlier := of_decide_eq_true hle
      exact Or.inr ⟨Severity.rank_inj.1 (Nat.le_antisymm hba hab), by omega⟩
    · next hba => exact Or.inl (Nat.lt_of_not_le hba)
  · cases hle

/-- The places tell all reports apart, so of any two one precedes the other. -/
theorem pairwise_ranked (ds : List Diagnostic) : (ranked ds).Pairwise Precedes := by
  have hsorted := List.pairwise_mergeSort
    (@List.zipIdxLE_trans Diagnostic (fun a b => decide (b.severity.rank ≤ a.severity.rank))
      fun a b c hab hbc => decide_eq_true (Nat.le_trans (of_decide_eq_true hbc) (of_decide_eq_true hab)))
    (List.zipIdxLE_total fun a b => by simp only [Bool.or_eq_true, decide_eq_true_eq]; exact Nat.le_total ..)
    ds.zipIdx
  have hplaces : ((ranked ds).map Prod.snd).Nodup := by
    rw [((ranked_perm ds).map Prod.snd).nodup_iff, List.zipIdx_map_snd]
    exact List.nodup_range'
  exact (hsorted.and (List.pairwise_map.1 hplaces)).imp fun h => precedes_of_zipIdxLE h.1 h.2

/-! ## The cut -/

theorem noteLast_concat (note : String) (front : List Diagnostic) (last : Diagnostic) :
    noteLast note (front ++ [last]) = front ++ [{ last with notes := last.notes ++ [note] }] := by
  induction front with
  | nil => rfl
  | cons d front ih => rw [List.cons_append, noteLast.eq_3 _ _ _ (by simp), ih, List.cons_append]

theorem capTo_of_length_le {max : Nat} (h : ds.length ≤ Nat.max max 1) : capTo max ds = ds := if_pos h

theorem capTo_of_length_gt {max : Nat} (h : ¬ ds.length ≤ Nat.max max 1) : capTo max ds =
    noteLast (droppedNote (ds.length - Nat.max max 1)) ((byGravity ds).take (Nat.max max 1)) := if_neg h

/-- A list that is too long is cut in two at the cap. -/
theorem exists_cut {limit : Nat} (h : limit ≤ ds.length) :
    ∃ kept dropped, ranked ds = kept ++ dropped ∧ kept.length = limit ∧ dropped.length = ds.length - limit := by
  refine ⟨(ranked ds).take limit, (ranked ds).drop limit, (List.take_append_drop ..).symm, ?_, ?_⟩
  · rw [List.length_take, length_ranked, Nat.min_eq_left h]
  · rw [List.length_drop, length_ranked]

/-- What is shown are the reports before the cut, of which there is at least one, with a note on the last. -/
theorem capTo_of_cut {max : Nat} {kept dropped : List (Diagnostic × Nat)} (hlong : Nat.max max 1 < ds.length)
    (hcut : ranked ds = kept ++ dropped) (hkept : kept.length = Nat.max max 1)
    (hdropped : dropped.length = ds.length - Nat.max max 1) :
    ∃ front last, kept.map Prod.fst = front ++ [last] ∧
      capTo max ds = front ++ [{ last with notes := last.notes ++ [droppedNote dropped.length] }] := by
  have hne : kept.map Prod.fst ≠ [] := by
    rw [ne_eq, ← List.length_eq_zero_iff, List.length_map, hkept]
    exact Nat.ne_of_gt (Nat.lt_of_lt_of_le Nat.zero_lt_one (Nat.le_max_right ..))
  have hfirst : (byGravity ds).take (Nat.max max 1) = kept.map Prod.fst := by
    rw [← map_fst_ranked, hcut, List.map_append]
    exact List.take_left' (by rw [List.length_map, hkept])
  refine ⟨_, _, (List.dropLast_append_getLast hne).symm, ?_⟩
  rw [capTo_of_length_gt (Nat.not_le_of_gt hlong), hfirst, ← hdropped, ← noteLast_concat,
    List.dropLast_append_getLast]

/-- A list of reports that is no longer than the cap, which is at least one, is shown as it is. Of a longer
one as many reports are kept as the cap allows, each as grave as any that is dropped. They are shown from the
gravest down, and equally grave ones as they were reported, of which the earlier ones are kept. Nothing is
changed but the last report that is kept: it has one more note, with the number of those that are dropped. -/
theorem cap_keeps_gravest (p : Policy) (max : Nat) (ds : List Diagnostic) :
    let limit := Nat.max max 1
    let shown := { p with maxDiagnostics := some max : Policy }.cap ds
    (ds.length ≤ limit → shown = ds) ∧
    (limit < ds.length → shown.length = limit ∧ ∃ kept dropped : List (Diagnostic × Nat),
      (kept ++ dropped).Perm ds.zipIdx ∧
      (∀ a ∈ kept, ∀ b ∈ dropped, b.1.severity.rank ≤ a.1.severity.rank) ∧
      (kept.Pairwise fun a b =>
        b.1.severity.rank < a.1.severity.rank ∨ a.1.severity = b.1.severity ∧ a.2 < b.2) ∧
      (∀ a ∈ kept, ∀ b ∈ dropped, a.1.severity = b.1.severity → a.2 < b.2) ∧
      ∃ front last, kept.map Prod.fst = front ++ [last] ∧
        shown = front ++ [{ last with
          notes := last.notes ++ [toString dropped.length ++ " further diagnostics were not shown"] }]) := by
  intro limit shown
  refine ⟨capTo_of_length_le, fun hlong => ?_⟩
  obtain ⟨kept, dropped, hcut, hkept, hdropped⟩ := exists_cut (Nat.le_of_lt hlong)
  obtain ⟨front, last, hlast, hshown⟩ := capTo_of_cut hlong hcut hkept hdropped
  obtain ⟨hordered, -, hprecedes⟩ := List.pairwise_append.1 (hcut ▸ pairwise_ranked ds)
  have hlength : shown.length = limit :=
    calc shown.length
      _ = (front ++ [last]).length := by rw [show shown = _ from hshown, List.length_append, List.length_append]; rfl
      _ = limit := by rw [← hlast, List.length_map, hkept]
  exact ⟨hlength, kept, dropped, hcut ▸ ranked_perm ds, fun a ha b hb => (hprecedes a ha b hb).rank_le, hordered,
    fun a ha b hb => (hprecedes a ha b hb).earlier, front, last, hlast, hshown⟩

/-- Of a warning, two errors and an info only the first error is shown under a cap of zero. Under a cap of two
both errors are shown as they were reported. -/
theorem cap_keeps_gravest_error :
    let report (severity : Severity) (message : String) : Diagnostic := ⟨.internal, severity, .unknown, message, [], []⟩
    let ds := [report .warning "w", report .error "e", report .info "i", report .error "f"]
    let shown (max : Nat) := ({ maxDiagnostics := some max } : Policy).cap ds
    Nat.max 0 1 < ds.length ∧ (shown 0).length = 1 ∧
      shown 0 = [{ report .error "e" with notes := ["3 further diagnostics were not shown"] }] ∧
      ds.length ≤ Nat.max 4 1 ∧ shown 4 = ds := by
  intro report ds shown
  have hlong : Nat.max 0 1 < ds.length := by decide
  have hshort : ds.length ≤ Nat.max 4 1 := by decide
  have hcut : shown 0 = [{ report .error "e" with notes := ["3 further diagnostics were not shown"] }] := by
    unfold shown ds report
    cbv
  exact ⟨hlong, ((cap_keeps_gravest {} 0 ds).2 hlong).1, hcut, hshort, (cap_keeps_gravest {} 4 ds).1 hshort⟩

end Policy

end SemanticSchema
