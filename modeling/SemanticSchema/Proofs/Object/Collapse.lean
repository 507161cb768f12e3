import Mathlib.Data.List.Forall2
import SemanticSchema.Proofs.Object.Equality

/-!
# Repeated fields

Of the fields that an object type is defined with, each class of equal fields is kept once, by its first member.

* `AnnotationUse.content_eq_iff` : annotations say the same when their arguments are the same in some order;
* `Field.agrees_equivalence` : equality of fields is an equivalence;
* `Field.pairwise_collapse`, `Field.collapse_of_pairwise` : the fields that are kept are unequal, and unequal fields
  are all kept;
* `Field.filter_collapse` : of the class of a field its first member is kept and no other;
* `ObjectDefinition.fields_collapsed` : all of this for the fields of a definition.
-/

set_option autoImplicit false

namespace SemanticSchema

namespace AnnotationUse

variable {u v : AnnotationUse} {us vs : List AnnotationUse}

theorem content_eq_iff :
    u.content = v.content ↔ u.name = v.name ∧ u.arguments.entries.Perm v.arguments.entries := by
  rw [content, content, Prod.mk.injEq, ← Arguments.agrees_iff, Arguments.agrees_iff_perm]

theorem map_content_eq_iff :
    us.map content = vs.map content ↔ List.Forall₂ (fun u v => u.content = v.content) us vs := by
  rw [← List.forall₂_eq_eq_eq, List.forall₂_map_left_iff, List.forall₂_map_right_iff]

end AnnotationUse

namespace Field

variable {f g : Field} {fields : List Field}

theorem agrees_equivalence : Equivalence fun f g : Field => f.agrees g = true where
  refl f := agrees_iff.2 (.refl f)
  symm h := agrees_iff.2 (agrees_iff.1 h).symm
  trans hfg hgh := agrees_iff.2 ((agrees_iff.1 hfg).trans (agrees_iff.1 hgh))

/-- With other annotations a field is still the same when one by one they bear the same names and have the same
arguments, in whatever order these were given. -/
theorem agrees_annotations_iff {uses : List AnnotationUse} : f.agrees { f with annotations := uses } = true ↔
    List.Forall₂ (fun u v => u.name = v.name ∧ u.arguments.entries.Perm v.arguments.entries) f.annotations uses := by
  have hsame : f.Same { f with annotations := uses } ↔
      f.annotations.map AnnotationUse.content = uses.map AnnotationUse.content :=
    ⟨fun h => h.annotations, fun h => ⟨rfl, rfl, rfl, rfl, h, rfl, rfl, rfl⟩⟩
  rw [agrees_iff, hsame, AnnotationUse.map_content_eq_iff]
  simp only [AnnotationUse.content_eq_iff]

/-! ## What is kept -/

theorem pairwise_collapse (fields : List Field) : (collapse fields).Pairwise fun f g => ¬ f.Same g := by
  induction fields using List.reverseRecOn with
  | nil => exact .nil
  | append_singleton fields g ih =>
    rw [collapse_concat_eq]
    split
    case isTrue => exact ih
    case isFalse hnew =>
      refine List.pairwise_append.2 ⟨ih, List.pairwise_singleton _ _, fun f hf h hh => ?_⟩
      rw [List.mem_singleton.1 hh]
      exact fun hsame => hnew ⟨f, hf, hsame⟩

/-- Where no field repeats an earlier one there is nothing to drop. -/
theorem collapse_of_pairwise (h : fields.Pairwise fun f g => ¬ f.Same g) : collapse fields = fields := by
  induction fields using List.reverseRecOn with
  | nil => rfl
  | append_singleton fields g ih =>
    obtain ⟨hfields, -, hlast⟩ := List.pairwise_append.1 h
    have hnew : ¬ ∃ f ∈ fields, f.Same g := fun ⟨f, hf, hsame⟩ => hlast f hf g (List.mem_singleton_self g) hsame
    rw [collapse_concat, if_neg hnew, ih hfields]

/-- Among the fields that are kept, one alone is the same as a given field: the first such field of all. -/
theorem filter_collapse (hf : f ∈ fields) :
    ∃ first, fields.find? (f.agrees ·) = some first ∧ (collapse fields).filter (f.agrees ·) = [first] := by
  have hclass (g h : Field) (hsame : g.Same h) : f.agrees g = f.agrees h := by
    rw [Bool.eq_iff_iff, agrees_iff, agrees_iff]
    exact ⟨fun hfg => hfg.trans hsame, fun hfh => hfh.trans hsame.symm⟩
  have hgroup : (fields.filter (f.agrees ·)).Pairwise Same := by
    refine List.pairwise_of_forall_mem_list fun g hg h hh => ?_
    have hfg : f.Same g := agrees_iff.1 (List.mem_filter.1 hg).2
    have hfh : f.Same h := agrees_iff.1 (List.mem_filter.1 hh).2
    exact hfg.symm.trans hfh
  have hmem : f ∈ fields.filter (f.agrees ·) := List.mem_filter.2 ⟨hf, agrees_iff.2 (.refl f)⟩
  obtain ⟨first, rest, hfirst⟩ := List.exists_cons_of_ne_nil (List.ne_nil_of_mem hmem)
  refine ⟨first, ?_, ?_⟩
  · rw [← List.head?_filter, hfirst, List.head?_cons]
  · rw [collapse_filter hclass, collapse_eq_take_iff.2 hgroup, hfirst, List.take_succ_cons, List.take_zero]

end Field

namespace ObjectDefinition

/-- The fields of a definition are among the given ones, in their order, and no two of them are equal. Each given
field is equal to one of them alone, which is the first given field that it is equal to. Equality is an equivalence,
though it does not see in which order the arguments of an annotation were given. A definition with the fields that
were kept keeps them all. -/
theorem fields_collapsed (fields : List Field) (annotations : List AnnotationUse) (modifiers : List Modifier)
    (inherits : List TypeRef) (doc : Option String) (span : Span) :
    let define (fields : List Field) := ofParts fields annotations modifiers inherits doc span
    let kept := (define fields).fields
    kept.Sublist fields ∧
    kept.Pairwise (fun f g => f.agrees g = false) ∧
    (∀ f ∈ fields, ∃ first,
      fields.find? (f.agrees ·) = some first ∧ kept.filter (f.agrees ·) = [first]) ∧
    (Equivalence fun f g : Field => f.agrees g = true) ∧
    (∀ (f : Field) (uses : List AnnotationUse), f.agrees { f with annotations := uses } = true ↔
      List.Forall₂ (fun u v => u.name = v.name ∧ u.arguments.entries.Perm v.arguments.entries) f.annotations uses) ∧
    (define kept).fields = kept := by
  intro define kept
  have hunequal : kept.Pairwise fun f g => ¬ f.Same g := Field.pairwise_collapse fields
  refine ⟨Field.collapse_sublist fields, hunequal.imp fun {f g} hne => ?_, fun f hf => Field.filter_collapse hf,
    Field.agrees_equivalence, fun f uses => Field.agrees_annotations_iff, Field.collapse_of_pairwise hunequal⟩
  rw [← Bool.not_eq_true, Field.agrees_iff]
  exact hne

/-- A field that is declared again below another, with the arguments of its annotation the other way round. -/
theorem fields_collapsed_reordered :
    let price (arguments : Arguments) (place : Span) : Field :=
      { name := "price", type := .primitive .decimal, annotations := [⟨.ofParts "" "Range", arguments⟩],
        span := place }
    let f := price (.ofList [("min", .int 0), ("max", .int 9)]) ⟨0, 10, 40, 2⟩
    let g := price (.ofList [("max", .int 9), ("min", .int 0)]) ⟨0, 70, 100, 4⟩
    let note : Field := { name := "note", type := .primitive .string, span := ⟨0, 50, 60, 3⟩ }
    g ∈ [f, note, g] ∧ ∃ first, [f, note, g].find? (g.agrees ·) = some first ∧
      (ofParts [f, note, g] [] [] [] none .unknown).fields.filter (g.agrees ·) = [first] ∧ first.span = f.span := by
  intro price f g note
  have hmem : g ∈ [f, note, g] := by simp
  obtain ⟨-, -, hkept, -⟩ := fields_collapsed [f, note, g] [] [] [] none .unknown
  obtain ⟨first, hfirst, honly⟩ := hkept g hmem
  have hf : [f, note, g].find? (g.agrees ·) = some f := rfl
  refine ⟨hmem, first, hfirst, honly, ?_⟩
  rw [Option.some.inj (hf.symm.trans hfirst)]

end ObjectDefinition

end SemanticSchema
