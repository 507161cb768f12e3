import SemanticSchema.Proofs.Object.Equality

/-!
# Places and the equality of fields

A field holds places at several depths: its own, those of its constraints, and in a constraint that is an
expression those of every part of it. Equality passes over the first and looks at all others. So a field
that is declared again elsewhere counts as a repetition unless it has constraints.

* `Expression.unlocated`, `Expression.places`, `Expression.eq_iff_places` : an expression without its places,
  its places, and both together;
* `Constraint.unlocated`, `Constraint.places`, `Constraint.eq_iff_places` : the same for constraints;
* `Field.Repeats`, `Field.same_iff` : repetition at whatever place, and what equality asks for besides;
* `Field.collapse_repeats` : which repetitions are dropped.
-/

set_option autoImplicit false

namespace SemanticSchema

namespace Expression

/-! ## Expressions -/

/-- The expression without its places. -/
def unlocated : Expression → Expression
  | literal value returns _ => literal value returns .unknown
  | type ref returns _ => type ref returns .unknown
  | property path returns _ => property path returns .unknown
  | comparison lhs operator rhs returns _ => comparison lhs.unlocated operator rhs.unlocated returns .unknown

/-- The places of all parts, an expression before its sides. -/
def places : Expression → List Span
  | literal _ _ s | type _ _ s | property _ _ s => [s]
  | comparison lhs _ rhs _ s => s :: (lhs.places ++ rhs.places)

theorem length_places_unlocated (e : Expression) : e.unlocated.places.length = e.places.length := by
  induction e with
  | literal | type | property => rfl
  | comparison lhs operator rhs returns s hlhs hrhs =>
    simp only [unlocated, places, List.length_cons, List.length_append, hlhs, hrhs]

theorem eq_iff_places {a b : Expression} : a = b ↔ a.unlocated = b.unlocated ∧ a.places = b.places := by
  refine ⟨fun h => h ▸ ⟨rfl, rfl⟩, ?_⟩
  induction a generalizing b with
  | literal | type | property => cases b <;> simp +contextual [unlocated, places]
  | comparison lhs operator rhs returns s hlhs hrhs =>
    cases b with
    | literal | type | property => simp [unlocated]
    | comparison lhs' operator' rhs' returns' s' =>
      simp only [unlocated, places, comparison.injEq, List.cons.injEq]
      rintro ⟨⟨hl, rfl, hr, rfl, -⟩, rfl, hplaces⟩
      -- Sides that differ in their places alone have as many of them, so the places part at the same point.
      have hlength : lhs.places.length = lhs'.places.length := by
        rw [← lhs.length_places_unlocated, hl, length_places_unlocated]
      obtain ⟨hpl, hpr⟩ := List.append_inj hplaces hlength
      exact ⟨hlhs ⟨hl, hpl⟩, rfl, hrhs ⟨hr, hpr⟩, rfl, rfl⟩

end Expression

namespace Constraint

/-! ## Constraints -/

/-- The constraint without its places. -/
def unlocated : Constraint → Constraint
  | expression body _ => expression body.unlocated .unknown
  | property subject operator expected _ => property subject operator expected .unknown
  | derivedFrom path _ => derivedFrom path .unknown
  | namedConstant field value _ => namedConstant field value .unknown
  | typedConstant type value _ => typedConstant type value .unknown

/-- The place of the constraint, and behind it those of its expression. -/
def places : Constraint → List Span
  | expression body s => s :: body.places
  | property _ _ _ s | derivedFrom _ s | namedConstant _ _ s | typedConstant _ _ s => [s]

theorem eq_iff_places {c d : Constraint} : c = d ↔ c.unlocated = d.unlocated ∧ c.places = d.places := by
  refine ⟨fun h => h ▸ ⟨rfl, rfl⟩, ?_⟩
  cases c with
  | expression body s =>
    cases d with
    | expression body' s' =>
      simp only [unlocated, places, expression.injEq, List.cons.injEq, and_true]
      rintro ⟨hbody, rfl, hplaces⟩
      exact ⟨Expression.eq_iff_places.2 ⟨hbody, hplaces⟩, rfl⟩
    | property | derivedFrom | namedConstant | typedConstant => simp [unlocated]
  | property | derivedFrom | namedConstant | typedConstant => cases d <;> simp +contextual [unlocated, places]

theorem list_eq_iff_places {cs ds : List Constraint} :
    cs = ds ↔ cs.map unlocated = ds.map unlocated ∧ cs.map places = ds.map places := by
  induction cs generalizing ds with
  | nil => cases ds <;> simp
  | cons c cs ih =>
    cases ds with
    | nil => simp
    | cons d ds =>
      simp only [List.map_cons, List.cons.injEq, ih, eq_iff_places (c := c)]
      tauto

end Constraint

namespace Field

/-! ## Fields -/

/-- The field without any place. -/
def unlocated (f : Field) : Field :=
  { f with constraints := f.constraints.map Constraint.unlocated, span := .unknown }

/-- The places of the constraints. -/
def places (f : Field) : List (List Span) := f.constraints.map Constraint.places

/-- Two fields are the same but for places, at whatever depth. -/
def Repeats (f g : Field) : Prop := f.unlocated.Same g.unlocated

instance : DecidableRel Repeats := fun f g => inferInstanceAs (Decidable (f.unlocated.Same g.unlocated))

variable {f g h : Field}

/-- Fields are the same when they repeat each other and their constraints lie at the same places. -/
theorem same_iff : f.Same g ↔ f.Repeats g ∧ f.places = g.places := by
  constructor
  · intro h
    refine ⟨⟨h.name, h.type, h.nullable, h.modifiers, h.annotations, ?_, h.doc, h.default⟩, ?_⟩
    · exact (Constraint.list_eq_iff_places.1 h.constraints).1
    · exact (Constraint.list_eq_iff_places.1 h.constraints).2
  · rintro ⟨h, hplaces⟩
    exact ⟨h.name, h.type, h.nullable, h.modifiers, h.annotations,
      Constraint.list_eq_iff_places.2 ⟨h.constraints, hplaces⟩, h.doc, h.default⟩

/-- Equality of fields passes over the place of a field, and over no other. So of the fields that repeat a
field only the first is kept exactly if their constraints all lie at the same places. -/
theorem collapse_repeats (fields : List Field) (f : Field) :
    let group := fields.filter (f.Repeats ·)
    (∀ g, f.agrees g = true ↔ f.Repeats g ∧ f.places = g.places) ∧
    (∀ g, collapse (fields ++ [g]) =
      if ∃ e ∈ fields, e.Repeats g ∧ e.places = g.places then collapse fields else collapse fields ++ [g]) ∧
    ((collapse fields).filter (f.Repeats ·) = group.take 1 ↔ group.Pairwise (·.places = ·.places)) := by
  intro group
  refine ⟨fun g => agrees_iff.trans same_iff, fun g => ?_, ?_⟩
  · rw [collapse_concat]
    simp only [same_iff]
  · have hclass (g h : Field) (hsame : g.Same h) : decide (f.Repeats g) = decide (f.Repeats h) := by
      have hrepeats := (same_iff.1 hsame).1
      exact decide_eq_decide.2 ⟨fun hf => hf.trans hrepeats, fun hf => hf.trans hrepeats.symm⟩
    rw [collapse_filter hclass, collapse_eq_take_iff]
    refine List.Pairwise.iff_of_mem fun {g h} hg hh => ?_
    have hfg : f.Repeats g := of_decide_eq_true (List.mem_filter.1 hg).2
    have hfh : f.Repeats h := of_decide_eq_true (List.mem_filter.1 hh).2
    rw [same_iff]
    exact and_iff_right (hfg.symm.trans hfh)

/-- A field with a constraint that is declared a second time, a line below, is not equal to the first and is
kept beside it. -/
theorem collapse_repeats_elsewhere :
    let price (place : Span) : Field :=
      { name := "price", type := .primitive .decimal,
        constraints := [.namedConstant "currency" (.text "GBP") place], span := place }
    let f := price ⟨0, 10, 40, 2⟩
    let g := price ⟨0, 50, 80, 3⟩
    f.Repeats g ∧ f.agrees g = false ∧ Field.collapse [f, g] = [f, g] := by
  intro price f g
  exact ⟨by decide, by decide, rfl⟩

end Field

end SemanticSchema
