import Mathlib.Logic.Relation
import SemanticSchema.Proofs.Registry.Resolve

/-!
# Runs of a registry

Four operations write a registry. A run performs them one after another, in any order, whether or
not they are accepted.

* `Registry.Event`, `Registry.apply`, `Registry.run` : the operations, one of them, a list of them;
* `Registry.problem_of_extend` : what an extension that is refused is reported as, and where;
* `Registry.Change` : the five things that a write can do, with the conditions under which it does
  them. Every operation is a chain of at most two changes (`Registry.changes_apply`), so what every
  change keeps is kept by every run (`Registry.run_invariant`);
* `Registry.Reaches`, `Registry.Reachable` : the registries that a run leads to, from some registry
  or from the empty one;
* `Registry.Reachable.namesDistinct` : a run never gives two records one name.
-/

set_option autoImplicit false

namespace SemanticSchema.Registry

/-- The operations that write a registry. -/
inductive Event where
  | resolve (origin : Span) (name : QualifiedName)
  | register (name : QualifiedName) (definition : TypeDefinition)
  | extend (name : QualifiedName) (extension : TypeExtension)
  | addImport (name : QualifiedName)

/-- The registry after an operation; a definition that is refused leaves it alone. -/
def apply (r : Registry) : Event → Registry
  | .resolve origin name => (r.resolve origin name).2
  | .register name d =>
    match r.register name d with
    | .ok (_, r) => r
    | .error _ => r
  | .extend name e => (r.extend name e).2
  | .addImport name => r.addImport name

/-- The registry after some operations. -/
def run (r : Registry) (events : List Event) : Registry := events.foldl apply r

/-- What a single write can do. -/
inductive Change (r : Registry) : Registry → Prop
  | imported (names : List QualifiedName) : Change r { r with imports := names }
  | named {name : QualifiedName} (origin : Span) (hnew : r.idOf? name = none) :
    Change r (r.push (.object (.undefined name)) origin).2
  | defined {name : QualifiedName} (d : TypeDefinition) (hnew : r.idOf? name = none) :
    Change r (r.push (d.toBody name) d.span).2
  | filled {id : TypeId} {x : Record} {d : TypeDefinition} {body : TypeBody} (hx : r.get? id = some x)
    (hfill : fill x.body d = .ok body) : Change r (r.setBody id body)
  | extended {id : TypeId} {x : Record} {e : TypeExtension} {body : TypeBody} (hx : r.get? id = some x)
    (hextend : x.body.extend e = .ok body) : Change r (r.setBody id body)

variable {r r' : Registry} {name : QualifiedName} {id : TypeId}

/-! ## What each operation does -/

theorem changes_resolve (r : Registry) (origin : Span) (name : QualifiedName) :
    Relation.ReflTransGen Change r (r.resolve origin name).2 := by
  cases hmeaning : r.meaning? name.element with
  | some t => rw [resolve_eq_of_known hmeaning]
  | none =>
    rw [resolve_eq_of_unknown hmeaning]
    exact .single (.named origin (idOf?_of_meaning?_eq_none hmeaning))

/-- A definition is accepted for a name without a record, or fills the record of the name. -/
theorem register_ok_cases {d : TypeDefinition} (h : r.register name d = .ok (id, r')) :
    (r.idOf? name = none ∧ id = ⟨r.size⟩ ∧ r' = (r.push (d.toBody name) d.span).2) ∨
    ∃ x body, r.idOf? name = some id ∧ r.get? id = some x ∧ fill x.body d = .ok body ∧
      r' = r.setBody id body := by
  unfold register at h
  split at h
  · next hnew =>
    cases h
    exact Or.inl ⟨hnew, rfl, rfl⟩
  · next slot hslot =>
    split at h
    · cases h
    · next x hx =>
      cases hfill : fill x.body d with
      | error e => rw [hfill] at h; cases h
      | ok body =>
        rw [hfill] at h
        cases h
        exact Or.inr ⟨x, body, hslot, hx, hfill, rfl⟩

theorem apply_eq_of_register_ok {d : TypeDefinition} (h : r.register name d = .ok (id, r')) :
    r.apply (.register name d) = r' := by
  simp only [apply, h]

theorem apply_eq_of_register_error {d : TypeDefinition} {e : RegistryError} (h : r.register name d = .error e) :
    r.apply (.register name d) = r := by
  simp only [apply, h]

theorem changes_register (r : Registry) (name : QualifiedName) (d : TypeDefinition) :
    Relation.ReflTransGen Change r (r.apply (.register name d)) := by
  cases h : r.register name d with
  | error e => rw [apply_eq_of_register_error h]
  | ok result =>
    rw [apply_eq_of_register_ok h]
    rcases register_ok_cases h with ⟨hnew, -, hresult⟩ | ⟨x, body, -, hx, hfill, hresult⟩
    · rw [hresult]
      exact .single (.defined d hnew)
    · rw [hresult]
      exact .single (.filled hx hfill)

/-- The only extension that resolves its name is one of an object type that has no record. -/
theorem extensionSlot_snd (r : Registry) (name : QualifiedName) (e : TypeExtension) :
    (r.extensionSlot name e).2 =
      if r.idOf? name = none ∧ e.kind = .object then (r.resolve e.span name).2 else r := by
  unfold extensionSlot
  cases hid : r.idOf? name with
  | some id =>
    rw [if_neg (by simp)]
  | none =>
    cases e with
    | object e =>
      rw [if_pos ⟨rfl, rfl⟩]
      cases r.resolve (TypeExtension.object e).span name with
      | mk t resolved => cases t <;> rfl
    | enum e => rw [if_neg (by simp [TypeExtension.kind])]
    | typeAlias e => rw [if_neg (by simp [TypeExtension.kind])]

/-- The slot that an extension goes to holds a record of the name. -/
theorem exists_of_extensionSlot {e : TypeExtension} (h : (r.extensionSlot name e).1 = .ok id) :
    ∃ x, (r.extensionSlot name e).2.get? id = some x ∧ x.name = name := by
  refine exists_of_idOf? ?_
  unfold extensionSlot at h ⊢
  cases hid : r.idOf? name with
  | some slot =>
    rw [hid] at h
    cases h
    exact hid
  | none =>
    rw [hid] at h
    cases e with
    | object e =>
      cases hresolve : r.resolve (TypeExtension.object e).span name with
      | mk t resolved =>
        have hslot := @idOf?_of_resolve r name (TypeExtension.object e).span id
        simp only [hresolve] at h hslot ⊢
        cases t with
        | user slot => cases h; exact hslot rfl
        | primitive p => cases h
        | void => cases h
        | array m => cases h
        | imported n => cases h
    | enum e => cases h
    | typeAlias e => cases h

/-- A name that gives no slot is that of a built-in, or of nothing that can be extended yet. -/
theorem problem_of_extensionSlot {e : TypeExtension} {refusal : ExtensionError}
    (h : (r.extensionSlot name e).1 = .error refusal) : refusal.problem = .invalidExtension := by
  unfold extensionSlot at h
  cases hid : r.idOf? name with
  | some slot => rw [hid] at h; cases h
  | none =>
    rw [hid] at h
    cases e with
    | object e =>
      cases hresolve : r.resolve (TypeExtension.object e).span name with
      | mk t resolved =>
        rw [hresolve] at h
        cases t with
        | user slot => cases h
        | primitive | void | array | imported => cases h; rfl
    | enum e => cases h; rfl
    | typeAlias e => cases h; rfl

/-- A refusal is an error at the place of the extension. None is about a slot without a record. -/
theorem problem_of_extend {e : TypeExtension} {refusal : Diagnostic} (h : (r.extend name e).1 = some refusal) :
    refusal.severity = .error ∧ refusal.span = e.span ∧
      (refusal.problem = .refinementConflict ∨ refusal.problem = .invalidExtension) := by
  unfold extend at h
  cases hslot : r.extensionSlot name e with
  | mk slot slotted =>
    have hrecord := @exists_of_extensionSlot r name
    rw [hslot] at h
    cases slot with
    | error reason =>
      cases h
      exact ⟨rfl, rfl, Or.inr (problem_of_extensionSlot (by rw [hslot]))⟩
    | ok id =>
      obtain ⟨x, hx, -⟩ := @hrecord id e (by rw [hslot])
      rw [hslot] at hx
      simp only [extendSlot, hx] at h
      cases hextend : x.body.extend e with
      | error reason =>
        rw [hextend] at h
        cases h
        exact ⟨rfl, rfl, TypeBody.problem_of_extend hextend⟩
      | ok body => rw [hextend] at h; cases h

/-- An extension that is accepted extends the record of its slot. -/
theorem extend_accepted {e : TypeExtension} (h : r.extend name e = (none, r')) :
    ∃ id x body, (r.extensionSlot name e).2.get? id = some x ∧ x.body.extend e = .ok body ∧
      r' = (r.extensionSlot name e).2.setBody id body := by
  unfold extend at h
  cases hslot : r.extensionSlot name e with
  | mk slot slotted =>
    have hrecord := @exists_of_extensionSlot r name
    rw [hslot] at h
    cases slot with
    | error refusal => cases h
    | ok id =>
      obtain ⟨x, hx, -⟩ := @hrecord id e (by rw [hslot])
      rw [hslot] at hx
      simp only [extendSlot, hx] at h
      cases hextend : x.body.extend e with
      | error refusal => rw [hextend] at h; cases h
      | ok body =>
        rw [hextend] at h
        cases h
        exact ⟨id, x, body, hx, hextend, rfl⟩

/-- An extension that is refused does no more than to resolve its name. -/
theorem extend_refused {e : TypeExtension} {refusal : Diagnostic} (h : r.extend name e = (some refusal, r')) :
    r' = (r.extensionSlot name e).2 := by
  unfold extend at h
  split at h
  · next hslot => rw [hslot]; exact (Prod.mk.inj h).2.symm
  · next slot slotted hslot =>
    rw [hslot]
    split at h
    · exact (Prod.mk.inj h).2.symm
    · cases h

theorem changes_extend (r : Registry) (name : QualifiedName) (e : TypeExtension) :
    Relation.ReflTransGen Change r (r.extend name e).2 := by
  have hslot : Relation.ReflTransGen Change r (r.extensionSlot name e).2 := by
    rw [extensionSlot_snd]
    split
    · exact changes_resolve r e.span name
    · exact .refl
  cases h : r.extend name e with
  | mk refusal r' =>
    cases refusal with
    | none =>
      obtain ⟨id, x, body, hx, hextend, rfl⟩ := extend_accepted h
      exact hslot.tail (.extended hx hextend)
    | some refusal =>
      obtain rfl := extend_refused h
      exact hslot

/-! ## Runs -/

theorem changes_apply (r : Registry) (e : Event) : Relation.ReflTransGen Change r (r.apply e) := by
  cases e with
  | resolve origin name => exact changes_resolve r origin name
  | register name d => exact changes_register r name d
  | extend name e => exact changes_extend r name e
  | addImport name =>
    simp only [apply, addImport]
    split
    · exact .refl
    · exact .single (.imported _)

theorem run_append (r : Registry) (before after : List Event) :
    r.run (before ++ after) = (r.run before).run after := List.foldl_append

theorem changes_run (r : Registry) (events : List Event) :
    Relation.ReflTransGen Change r (r.run events) := by
  induction events generalizing r with
  | nil => exact .refl
  | cons e es ih => exact (changes_apply r e).trans (ih (r.apply e))

/-- What every change keeps is kept by every run. -/
theorem run_invariant {P : Registry → Prop} (hchange : ∀ r r', r.Change r' → P r → P r') (h : P r)
    (events : List Event) : P (r.run events) := by
  have hchanges := changes_run r events
  generalize r.run events = after at hchanges ⊢
  induction hchanges with
  | refl => exact h
  | tail _ hstep ih => exact hchange _ _ hstep ih

/-- Whether some run leads from one registry to the other. -/
def Reaches (r r' : Registry) : Prop := ∃ events, r.run events = r'

theorem Reaches.refl (r : Registry) : r.Reaches r := ⟨[], rfl⟩

theorem Reaches.trans {r₁ r₂ r₃ : Registry} (h : r₁.Reaches r₂) (h' : r₂.Reaches r₃) : r₁.Reaches r₃ := by
  obtain ⟨before, rfl⟩ := h
  obtain ⟨after, rfl⟩ := h'
  exact ⟨before ++ after, run_append r₁ before after⟩

theorem reaches_apply (r : Registry) (e : Event) : r.Reaches (r.apply e) := ⟨[e], rfl⟩

/-- Whether some run leads from the empty registry to this one. -/
def Reachable (r : Registry) : Prop := Reaches {} r

/-! ## Distinct names -/

theorem namesDistinct_empty : NamesDistinct {} := List.nodup_nil

theorem NamesDistinct.change (h : r.NamesDistinct) (hchange : r.Change r') : r'.NamesDistinct := by
  cases hchange with
  | imported names => exact h
  | named origin hnew => exact NamesDistinct.push origin h hnew
  | defined d hnew => exact NamesDistinct.push d.span h (by rw [TypeDefinition.name_toBody]; exact hnew)
  | filled hx hfill => rw [NamesDistinct, names_setBody hx (filled_of_fill hfill).name]; exact h
  | extended hx hextend =>
    rw [NamesDistinct, names_setBody hx (TypeBody.extended_of_extend hextend).name]
    exact h

theorem NamesDistinct.run (h : r.NamesDistinct) (events : List Event) : (r.run events).NamesDistinct :=
  run_invariant (fun _ _ hchange h => h.change hchange) h events

theorem NamesDistinct.apply (h : r.NamesDistinct) (e : Event) : (r.apply e).NamesDistinct := h.run [e]

theorem Reachable.namesDistinct (h : r.Reachable) : r.NamesDistinct := by
  obtain ⟨events, rfl⟩ := h
  exact namesDistinct_empty.run events

end SemanticSchema.Registry
