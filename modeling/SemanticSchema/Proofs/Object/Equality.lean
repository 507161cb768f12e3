import Mathlib.Data.List.Induction
import Mathlib.Data.List.Nodup
import Mathlib.Data.List.Perm.Subperm
import SemanticSchema.ObjectType

/-!
# Equality of fields

Fields are compared part by part, but for their places. The arguments of an annotation count as a table:
their order plays no part. So equality is an equivalence, and collapsing keeps the first of each class.

* `Arguments.agrees_iff` : arguments agree when the same value stands under every key;
* `AnnotationUse.content`, `AnnotationUse.beq_iff` : what is compared of an annotation;
* `Field.Same`, `Field.agrees_iff` : equality of fields, as an equivalence;
* `Field.collapse_concat`, `Field.collapse_filter` : collapsing, field by field and class by class.
-/

set_option autoImplicit false

namespace SemanticSchema

/-! ## Annotations -/

namespace Arguments

variable {args a b : Arguments}

theorem nodup_entries (args : Arguments) : args.entries.Nodup := args.nodup_keys.of_map _

theorem get?_eq_some_iff {key : String} {value : Literal} :
    args.get? key = some value ↔ (key, value) ∈ args.entries := by
  obtain ⟨entries, hkeys⟩ := args
  show entries.lookup key = some value ↔ (key, value) ∈ entries
  induction entries with
  | nil => simp
  | cons e es ih =>
    obtain ⟨k, v⟩ := e
    rw [List.map_cons, List.nodup_cons] at hkeys
    rw [List.lookup_cons, List.mem_cons, Prod.mk.injEq]
    by_cases hkey : key = k
    · subst hkey
      rw [beq_self_eq_true]
      refine ⟨fun h => Or.inl ⟨rfl, (Option.some.inj h).symm⟩, ?_⟩
      rintro (⟨-, rfl⟩ | hmem)
      · rfl
      · exact absurd (List.mem_map_of_mem hmem) hkeys.1
    · rw [beq_false_of_ne hkey]
      simp only [hkey, false_and, false_or]
      exact ih hkeys.2

theorem agrees_iff_perm : a.agrees b = true ↔ a.entries.Perm b.entries := by
  simp only [agrees, Bool.and_eq_true, beq_iff_eq, List.all_eq_true, get?_eq_some_iff]
  constructor
  · rintro ⟨hlength, hsub⟩
    exact (List.subperm_of_subset a.nodup_entries hsub).perm_of_length_le (Nat.le_of_eq hlength.symm)
  · intro h
    exact ⟨h.length_eq, fun e he => h.mem_iff.1 he⟩

theorem agrees_iff : a.agrees b = true ↔ a.get? = b.get? := by
  rw [agrees_iff_perm, List.perm_ext_iff_of_nodup a.nodup_entries b.nodup_entries]
  constructor
  · intro h
    funext key
    ext value
    rw [get?_eq_some_iff, get?_eq_some_iff, h]
  · rintro h ⟨key, value⟩
    rw [← get?_eq_some_iff, ← get?_eq_some_iff, h]

end Arguments

namespace AnnotationUse

/-- What an annotation says: its name, and the value under each key. -/
def content (use : AnnotationUse) : QualifiedName × (String → Option Literal) :=
  (use.name, use.arguments.get?)

theorem beq_iff {u v : AnnotationUse} : (u == v) = true ↔ u.content = v.content := by
  show (u.name == v.name && u.arguments.agrees v.arguments) = true ↔ _
  rw [Bool.and_eq_true, beq_iff_eq, Arguments.agrees_iff, content, content, Prod.mk.injEq]

theorem beq_list_iff {us vs : List AnnotationUse} : (us == vs) = true ↔ us.map content = vs.map content := by
  induction us generalizing vs with
  | nil => cases vs <;> simp
  | cons u us ih =>
    cases vs with
    | nil => simp
    | cons v vs => rw [List.cons_beq_cons, Bool.and_eq_true, beq_iff, ih, List.map_cons, List.map_cons, List.cons.injEq]

end AnnotationUse

/-! ## Fields -/

namespace Field

/-- Two fields are the same, part by part, wherever they were declared. -/
structure Same (f g : Field) : Prop where
  name : f.name = g.name
  type : f.type = g.type
  nullable : f.nullable = g.nullable
  modifiers : f.modifiers = g.modifiers
  annotations : f.annotations.map AnnotationUse.content = g.annotations.map AnnotationUse.content
  constraints : f.constraints = g.constraints
  doc : f.doc = g.doc
  default : f.default = g.default

variable {f g h : Field} {fields : List Field}

theorem closed_mk (name : String) (type : TypeRef) (nullable isClosed : Bool) (annotations : List AnnotationUse)
    (constraints : List Constraint) (doc : Option String) (default : Option Literal) (span : Span) :
    (mk name type nullable isClosed annotations constraints doc default span).closed = isClosed := by
  cases isClosed <;> rfl

theorem agrees_iff : f.agrees g = true ↔ f.Same g := by
  simp only [agrees, Bool.and_eq_true, beq_iff_eq, AnnotationUse.beq_list_iff]
  constructor
  · rintro ⟨⟨⟨⟨⟨⟨⟨hname, htype⟩, hnullable⟩, hmodifiers⟩, hannotations⟩, hconstraints⟩, hdoc⟩, hdefault⟩
    exact ⟨hname, htype, hnullable, hmodifiers, hannotations, hconstraints, hdoc, hdefault⟩
  · intro h
    exact ⟨⟨⟨⟨⟨⟨⟨h.name, h.type⟩, h.nullable⟩, h.modifiers⟩, h.annotations⟩, h.constraints⟩, h.doc⟩, h.default⟩

/-- A modifier that is given twice counts twice. -/
example : Field.agrees { name := "id", type := .void, modifiers := [.closed, .closed] }
    { name := "id", type := .void, modifiers := [.closed] } = false := by decide

instance : DecidableRel Same := fun _ _ => decidable_of_iff _ agrees_iff

theorem Same.refl (f : Field) : f.Same f := ⟨rfl, rfl, rfl, rfl, rfl, rfl, rfl, rfl⟩

theorem Same.symm (h : f.Same g) : g.Same f :=
  ⟨h.name.symm, h.type.symm, h.nullable.symm, h.modifiers.symm, h.annotations.symm, h.constraints.symm, h.doc.symm,
    h.default.symm⟩

theorem Same.trans (hfg : f.Same g) (hgh : g.Same h) : f.Same h :=
  ⟨hfg.name.trans hgh.name, hfg.type.trans hgh.type, hfg.nullable.trans hgh.nullable,
    hfg.modifiers.trans hgh.modifiers, hfg.annotations.trans hgh.annotations, hfg.constraints.trans hgh.constraints,
    hfg.doc.trans hgh.doc, hfg.default.trans hgh.default⟩

/-! ## Collapsing -/

theorem collapse_concat_eq (fields : List Field) (g : Field) :
    collapse (fields ++ [g]) =
      if ∃ f ∈ collapse fields, f.Same g then collapse fields else collapse fields ++ [g] := by
  show List.foldl _ [] (fields ++ [g]) = _
  rw [List.foldl_append, List.foldl_cons, List.foldl_nil]
  show (if (collapse fields).any (·.agrees g) = true then collapse fields else collapse fields ++ [g]) = _
  simp only [List.any_eq_true, agrees_iff]

theorem collapse_sublist (fields : List Field) : (collapse fields).Sublist fields := by
  induction fields using List.reverseRecOn with
  | nil => exact .refl _
  | append_singleton fields g ih =>
    rw [collapse_concat_eq]
    split_ifs
    · exact ih.trans (List.sublist_append_left _ _)
    · exact ih.append_right [g]

/-- Of every class a field is kept. -/
theorem exists_same_of_mem (hf : f ∈ fields) : ∃ k ∈ collapse fields, k.Same f := by
  induction fields using List.reverseRecOn with
  | nil => cases hf
  | append_singleton fields g ih =>
    rw [collapse_concat_eq]
    rcases List.mem_append.1 hf with hf | hf
    · obtain ⟨k, hk, hsame⟩ := ih hf
      refine ⟨k, ?_, hsame⟩
      split_ifs
      · exact hk
      · exact List.mem_append_left _ hk
    · rw [List.mem_singleton.1 hf]
      split_ifs with hkept
      · exact hkept
      · exact ⟨g, List.mem_append_right _ (List.mem_singleton_self g), .refl g⟩

/-- A field is dropped when an earlier one is the same, whether that one was kept or not. -/
theorem collapse_concat (fields : List Field) (g : Field) :
    collapse (fields ++ [g]) = if ∃ f ∈ fields, f.Same g then collapse fields else collapse fields ++ [g] := by
  have hkept : (∃ f ∈ collapse fields, f.Same g) ↔ ∃ f ∈ fields, f.Same g := by
    constructor
    · rintro ⟨f, hf, hsame⟩
      exact ⟨f, (collapse_sublist fields).subset hf, hsame⟩
    · rintro ⟨f, hf, hsame⟩
      obtain ⟨k, hk, hkf⟩ := exists_same_of_mem hf
      exact ⟨k, hk, hkf.trans hsame⟩
  rw [collapse_concat_eq]
  simp only [hkept]

/-- Fields that are told apart by `p` do not see each other when they are collapsed. -/
theorem collapse_filter {p : Field → Bool} (hp : ∀ f g : Field, f.Same g → p f = p g) (fields : List Field) :
    (collapse fields).filter p = collapse (fields.filter p) := by
  induction fields using List.reverseRecOn with
  | nil => rfl
  | append_singleton fields g ih =>
    rw [collapse_concat, List.filter_append]
    by_cases hg : p g = true
    · have hsame : (∃ f ∈ fields, f.Same g) ↔ ∃ f ∈ fields.filter p, f.Same g := by
        simp only [List.mem_filter]
        exact ⟨fun ⟨f, hf, h⟩ => ⟨f, ⟨hf, (hp f g h).trans hg⟩, h⟩, fun ⟨f, hf, h⟩ => ⟨f, hf.1, h⟩⟩
      rw [List.filter_cons_of_pos hg, List.filter_nil, collapse_concat, ← ih]
      simp only [← hsame]
      split_ifs
      · rfl
      · rw [List.filter_append, List.filter_cons_of_pos hg, List.filter_nil]
    · rw [List.filter_cons_of_neg hg, List.filter_nil, List.append_nil, ← ih]
      split_ifs
      · rfl
      · rw [List.filter_append, List.filter_cons_of_neg hg, List.filter_nil, List.append_nil]

/-- Of fields that are all the same only the first is kept. -/
theorem collapse_eq_take_iff : collapse fields = fields.take 1 ↔ fields.Pairwise Same := by
  constructor
  · intro hfirst
    refine List.pairwise_of_forall_mem_list fun f hf g hg => ?_
    obtain ⟨k, hk, hkf⟩ := exists_same_of_mem hf
    obtain ⟨k', hk', hkg⟩ := exists_same_of_mem hg
    rw [hfirst] at hk hk'
    cases fields with
    | nil => cases hf
    | cons first rest =>
      rw [List.take_succ_cons, List.take_zero, List.mem_singleton] at hk hk'
      subst hk hk'
      exact hkf.symm.trans hkg
  · intro hsame
    induction fields using List.reverseRecOn with
    | nil => rfl
    | append_singleton fields g ih =>
      rw [List.pairwise_append] at hsame
      rw [collapse_concat, ih hsame.1]
      cases fields with
      | nil => rfl
      | cons f fs => exact if_pos ⟨f, List.mem_cons_self, hsame.2.2 f List.mem_cons_self g (List.mem_singleton_self g)⟩

end Field

end SemanticSchema
