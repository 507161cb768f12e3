import Mathlib.Data.List.AList
import SemanticSchema.Proofs.Registry.Run

/-!
# A registry with tables

A registry finds a name by searching its records. With two tables beside the records it need not
search: one gives the slot of each name, the other the place of the first reference to a name that
was recorded as a mere reference. The tables are written where a record is added and nowhere else,
while records change in place; what is shown here is that they never fall out of step.

* `Registry.Indexed` : records, imports and tables. Its operations are those of `Registry`, but they
  look into the tables;
* `Indexed.InStep` : what the tables say is what the records say;
* `Indexed.Agrees` : an answer is that of the registry without the tables, and these stay in step;
* `Indexed.agrees_resolve`, `Indexed.register_eq`, `Indexed.agrees_extend` : every operation agrees;
* `Indexed.run_inStep` : so does every run;
* `Indexed.index_invariant` : after every run names and slots are in bijection, and the table of
  names holds exactly this bijection.
-/

set_option autoImplicit false

namespace SemanticSchema.Registry

/-- A registry with a table of the slots of its names and a table of first references. -/
structure Indexed where
  records : List Record := []
  index : AList fun _ : QualifiedName => TypeId := ∅
  firstReferences : AList fun _ : TypeId => Span := ∅
  imports : List QualifiedName := []

namespace Indexed

/-- The registry without the tables. -/
def plain (s : Indexed) : Registry := ⟨s.records, s.imports⟩

/-! ## Operations

Each is the operation of `Registry` of the same name, with a lookup in place of the search.
-/

def idOf? (s : Indexed) (name : QualifiedName) : Option TypeId := s.index.lookup name

/-- Adds a record in the next slot, and its name to the table. -/
def push (s : Indexed) (body : TypeBody) (origin : Span) : TypeId × Indexed :=
  (⟨s.records.length⟩, { s with
    records := s.records ++ [⟨body, origin⟩]
    index := s.index.insert body.name ⟨s.records.length⟩ })

def setBody (s : Indexed) (id : TypeId) (body : TypeBody) : Indexed :=
  { s with records := s.records.modify id.slot fun x => { x with body := body } }

def resolveNamed (s : Indexed) (name : QualifiedName) (origin : Span) : TypeRef × Indexed :=
  match Primitive.ofName? name with
  | some p => (.primitive p, s)
  | none =>
    if name.isBuiltin TypeRef.voidName then (.void, s)
    else match s.idOf? name with
      | some id => (.user id, s)
      | none =>
        if s.imports.contains name then (.imported name, s)
        else
          let (id, s) := s.push (.object (.undefined name)) origin
          (.user id, { s with firstReferences := s.firstReferences.insert id origin })

def resolve (s : Indexed) (origin : Span) : QualifiedName → TypeRef × Indexed
  | ⟨ns, simple, [m]⟩ =>
    if QualifiedName.isBuiltin ⟨ns, simple, [m]⟩ TypeRef.arrayName then
      let (t, s) := resolve s origin m
      (.array t, s)
    else s.resolveNamed ⟨ns, simple, [m]⟩ origin
  | name => s.resolveNamed name origin

def register (s : Indexed) (name : QualifiedName) (d : TypeDefinition) :
    Except RegistryError (TypeId × Indexed) :=
  match s.idOf? name with
  | none => .ok (s.push (d.toBody name) d.span)
  | some id =>
    match s.records[id.slot]? with
    | none => .error (.redefinition name)
    | some x => (fill x.body d).map fun body => (id, s.setBody id body)

def extensionSlot (s : Indexed) (name : QualifiedName) (e : TypeExtension) :
    Except ExtensionError TypeId × Indexed :=
  match s.idOf? name, e with
  | some id, _ => (.ok id, s)
  | none, .object _ =>
    match s.resolve e.span name with
    | (.user id, s) => (.ok id, s)
    | (_, s) => (.error (.builtin name), s)
  | none, e => (.error (.unknown e.kind name), s)

def extendSlot (s : Indexed) (name : QualifiedName) (id : TypeId) (e : TypeExtension) :
    Except ExtensionError Indexed :=
  match s.records[id.slot]? with
  | none => .error (.missingRecord name)
  | some x => (x.body.extend e).map (s.setBody id)

/-- Extends a name; `none` when the extension is accepted. -/
def extend (s : Indexed) (name : QualifiedName) (e : TypeExtension) : Option Diagnostic × Indexed :=
  match s.extensionSlot name e with
  | (.error refusal, s) => (some (refusal.toDiagnostic s.plain.spell e.span), s)
  | (.ok id, s) =>
    match s.extendSlot name id e with
    | .error refusal => (some (refusal.toDiagnostic s.plain.spell e.span), s)
    | .ok s => (none, s)

def addImport (s : Indexed) (name : QualifiedName) : Indexed :=
  if s.imports.contains name then s else { s with imports := s.imports ++ [name] }

/-- A report on each record that was never defined, at the first reference to it if there was one. -/
def unresolved (s : Indexed) : List Diagnostic :=
  (s.records.zipIdx.filter fun slot => !slot.1.isDefined).map fun slot =>
    let origin := (s.firstReferences.lookup ⟨slot.2⟩).getD slot.1.origin
    unresolvedReport { slot.1 with origin := origin }

def apply (s : Indexed) : Event → Indexed
  | .resolve origin name => (s.resolve origin name).2
  | .register name d =>
    match s.register name d with
    | .ok (_, s) => s
    | .error _ => s
  | .extend name e => (s.extend name e).2
  | .addImport name => s.addImport name

def run (s : Indexed) (events : List Event) : Indexed := events.foldl apply s

/-! ## Tables in step -/

/-- The tables say what the records say. -/
structure InStep (s : Indexed) : Prop where
  index : ∀ name, s.idOf? name = s.plain.idOf? name
  firstReferences : ∀ id span, s.firstReferences.lookup id = some span →
    ∃ x, s.plain.get? id = some x ∧ x.origin = span

/-- The answer is that of the registry without the tables, and these are in step afterwards. -/
structure Agrees {α : Type} (p : α × Indexed) (q : α × Registry) : Prop where
  answer : p.1 = q.1
  plain : p.2.plain = q.2
  inStep : p.2.InStep

variable {s : Indexed} {name : QualifiedName} {id : TypeId}

theorem isImported_plain (s : Indexed) (name : QualifiedName) :
    s.plain.isImported name = s.imports.contains name := rfl

theorem get?_plain (s : Indexed) (id : TypeId) : s.plain.get? id = s.records[id.slot]? := rfl

theorem inStep_empty : InStep {} := ⟨fun _ => rfl, nofun⟩

theorem InStep.agrees {α : Type} (h : s.InStep) (a : α) : Agrees (a, s) (a, s.plain) := ⟨rfl, rfl, h⟩

/-- The name of a new record is new in both: the table maps it to the slot that the search finds. -/
theorem InStep.push (h : s.InStep) (body : TypeBody) (origin : Span)
    (hnew : s.plain.idOf? body.name = none) : (s.push body origin).2.InStep where
  index name := by
    by_cases hname : name = body.name
    · subst hname
      exact (AList.lookup_insert s.index).trans (idOf?_push_self body origin hnew).symm
    · exact (AList.lookup_insert_ne hname).trans
        ((h.index name).trans (idOf?_push_of_ne body origin hname).symm)
  firstReferences id span hspan := by
    obtain ⟨x, hx, horigin⟩ := h.firstReferences id span hspan
    exact ⟨x, get?_push_of_some body origin hx, horigin⟩

theorem InStep.setBody {x : Record} {body : TypeBody} (h : s.InStep) (hx : s.plain.get? id = some x)
    (hname : body.name = x.name) : (s.setBody id body).InStep where
  index name := (h.index name).trans (idOf?_congr (names_setBody hx hname)).symm
  firstReferences j span hspan := by
    obtain ⟨y, hy, horigin⟩ := h.firstReferences j span hspan
    by_cases hj : j = id
    · subst hj
      exact ⟨_, get?_setBody_self body hy, horigin⟩
    · exact ⟨y, (get?_setBody_of_ne body hj).trans hy, horigin⟩

/-- A first reference is noted for the record that it brought about. -/
theorem InStep.firstReference {body : TypeBody} {origin : Span} (h : (s.push body origin).2.InStep) :
    InStep { (s.push body origin).2 with
      firstReferences := s.firstReferences.insert ⟨s.records.length⟩ origin } where
  index := h.index
  firstReferences id span hspan := by
    by_cases hid : id = ⟨s.records.length⟩
    · subst hid
      rw [AList.lookup_insert] at hspan
      cases hspan
      exact ⟨⟨body, origin⟩, (get?_push s.plain body origin _).trans (if_pos rfl), rfl⟩
    · rw [AList.lookup_insert_ne hid] at hspan
      exact h.firstReferences id span hspan

/-! ## One operation -/

theorem agrees_resolveNamed (h : s.InStep) (name : QualifiedName) (origin : Span) :
    Agrees (s.resolveNamed name origin) (s.plain.resolveNamed name origin) := by
  unfold resolveNamed Registry.resolveNamed
  rw [h.index name, isImported_plain]
  cases Primitive.ofName? name with
  | some p => exact h.agrees _
  | none =>
    by_cases hvoid : name.isBuiltin TypeRef.voidName = true
    · simp only [if_pos hvoid]
      exact h.agrees _
    · simp only [if_neg hvoid]
      cases hid : s.plain.idOf? name with
      | some id => exact h.agrees _
      | none =>
        by_cases himported : s.imports.contains name = true
        · simp only [if_pos himported]
          exact h.agrees _
        · simp only [if_neg himported]
          exact ⟨rfl, rfl, (h.push (.object (.undefined name)) origin hid).firstReference⟩

theorem agrees_resolve (h : s.InStep) (origin : Span) (name : QualifiedName) :
    Agrees (s.resolve origin name) (s.plain.resolve origin name) := by
  induction name using QualifiedName.element.induct with
  | case1 ns simple m harray ih =>
    rw [resolve, Registry.resolve, if_pos harray, if_pos harray]
    exact ⟨congrArg TypeRef.array ih.answer, ih.plain, ih.inStep⟩
  | case2 ns simple m harray =>
    rw [resolve, Registry.resolve, if_neg harray, if_neg harray]
    exact agrees_resolveNamed h _ origin
  | case3 name hlayers =>
    rw [resolve.eq_2 _ _ _ hlayers, Registry.resolve.eq_2 _ _ _ hlayers]
    exact agrees_resolveNamed h name origin

/-- A definition is accepted by both, in the same slot, or refused by both for the same reason. -/
theorem register_eq (h : s.InStep) (name : QualifiedName) (d : TypeDefinition) :
    (s.register name d).map (fun p => (p.1, p.2.plain)) = s.plain.register name d ∧
    ∀ id after, s.register name d = .ok (id, after) → after.InStep := by
  unfold register Registry.register
  rw [h.index name]
  cases hid : s.plain.idOf? name with
  | none =>
    refine ⟨rfl, fun id after hafter => ?_⟩
    cases hafter
    exact h.push (d.toBody name) d.span (by rw [TypeDefinition.name_toBody]; exact hid)
  | some id =>
    obtain ⟨x, hx, -⟩ := exists_of_idOf? hid
    simp only [← get?_plain, hx]
    cases hfill : fill x.body d with
    | error e => exact ⟨rfl, nofun⟩
    | ok body =>
      refine ⟨rfl, fun slot after hafter => ?_⟩
      cases hafter
      exact h.setBody hx (filled_of_fill hfill).name

theorem agrees_extensionSlot (h : s.InStep) (name : QualifiedName) (e : TypeExtension) :
    Agrees (s.extensionSlot name e) (s.plain.extensionSlot name e) := by
  unfold extensionSlot Registry.extensionSlot
  rw [h.index name]
  cases s.plain.idOf? name with
  | some id => exact h.agrees _
  | none =>
    cases e with
    | object x =>
      obtain ⟨hanswer, hplain, hstep⟩ := agrees_resolve h (TypeExtension.object x).span name
      revert hanswer hplain hstep
      cases s.resolve (TypeExtension.object x).span name with
      | mk t after =>
        cases s.plain.resolve (TypeExtension.object x).span name with
        | mk t' after' =>
          rintro rfl rfl hstep
          cases t <;> exact hstep.agrees _
    | enum x => exact h.agrees _
    | typeAlias x => exact h.agrees _

theorem agrees_extend (h : s.InStep) (name : QualifiedName) (e : TypeExtension) :
    Agrees (s.extend name e) (s.plain.extend name e) := by
  -- Said before the slot is taken out of the goal: an accepted slot has a record.
  have hrecord := @exists_of_extensionSlot s.plain name
  obtain ⟨hanswer, hplain, hstep⟩ := agrees_extensionSlot h name e
  unfold extend Registry.extend
  revert hanswer hplain hstep
  cases s.extensionSlot name e with
  | mk slot slotted =>
    cases hslot : s.plain.extensionSlot name e with
    | mk slot' slotted' =>
      rintro rfl rfl hstep
      cases slot with
      | error refusal => exact hstep.agrees _
      | ok id =>
        obtain ⟨x, hx, -⟩ := @hrecord id e (by rw [hslot])
        rw [hslot] at hx
        simp only [extendSlot, Registry.extendSlot, ← get?_plain, hx]
        cases hextend : x.body.extend e with
        | error refusal => exact hstep.agrees _
        | ok body => exact (hstep.setBody hx (TypeBody.extended_of_extend hextend).name).agrees _

theorem addImport_inStep (h : s.InStep) (name : QualifiedName) :
    (s.addImport name).plain = s.plain.addImport name ∧ (s.addImport name).InStep := by
  unfold addImport Registry.addImport
  rw [isImported_plain]
  by_cases himported : s.imports.contains name = true
  · rw [if_pos himported, if_pos himported]
    exact ⟨rfl, h⟩
  · rw [if_neg himported, if_neg himported]
    exact ⟨rfl, h.index, h.firstReferences⟩

/-! ## Runs -/

theorem apply_inStep (h : s.InStep) (e : Event) :
    (s.apply e).plain = s.plain.apply e ∧ (s.apply e).InStep := by
  cases e with
  | resolve origin name =>
    obtain ⟨-, hplain, hstep⟩ := agrees_resolve h origin name
    exact ⟨hplain, hstep⟩
  | register name d =>
    obtain ⟨hregister, hstep⟩ := register_eq h name d
    simp only [apply, Registry.apply, ← hregister]
    cases hresult : s.register name d with
    | error e => exact ⟨rfl, h⟩
    | ok result => exact ⟨rfl, hstep _ _ hresult⟩
  | extend name e =>
    obtain ⟨-, hplain, hstep⟩ := agrees_extend h name e
    exact ⟨hplain, hstep⟩
  | addImport name => exact addImport_inStep h name

/-- The tables change nothing of what is recorded, and never fall out of step. -/
theorem run_inStep (h : s.InStep) (events : List Event) :
    (s.run events).plain = s.plain.run events ∧ (s.run events).InStep := by
  induction events generalizing s with
  | nil => exact ⟨rfl, h⟩
  | cons e es ih =>
    obtain ⟨hplain, hstep⟩ := apply_inStep h e
    have hrest := ih hstep
    rw [hplain] at hrest
    exact hrest

/-- The table of first references never points elsewhere than the record. -/
theorem unresolved_eq (h : s.InStep) : s.unresolved = s.plain.unresolved := by
  unfold unresolved Registry.unresolved
  have hrecords : s.plain.records = s.records.zipIdx.map Prod.fst := (List.zipIdx_map_fst 0 s.records).symm
  rw [hrecords, List.filter_map, List.map_map]
  refine List.map_congr_left fun slot hslot => congrArg unresolvedReport ?_
  have hget : s.plain.get? ⟨slot.2⟩ = some slot.1 :=
    List.mem_zipIdx_iff_getElem?.1 (List.mem_filter.1 hslot).1
  cases hspan : s.firstReferences.lookup ⟨slot.2⟩ with
  | none => rfl
  | some span =>
    obtain ⟨x, hx, rfl⟩ := h.firstReferences ⟨slot.2⟩ span hspan
    obtain rfl : x = slot.1 := Option.some.inj (hx.symm.trans hget)
    rfl

/-! ## Names and slots -/

/-- Names and slots are in bijection, and the table of names holds it, after every run. The slot of
each record is found by its name; a name that is found leads to a record that bears it; no two
records bear one name; a defined name is listed once and no other name is listed; and from a name to
a slot and back leads to the same name, from a slot to a name and back to the same slot. -/
theorem index_invariant (events : List Event) :
    let s := run {} events
    let r := Registry.run {} events
    s.plain = r ∧ (∀ name, s.idOf? name = r.idOf? name) ∧
    (∀ id x, r.get? id = some x → s.idOf? x.name = some id) ∧
    (∀ name id, s.idOf? name = some id → id.slot < r.size ∧ ∃ x, r.get? id = some x ∧ x.name = name) ∧
    (∀ i j x y, r.get? i = some x → r.get? j = some y → x.name = y.name → i = j) ∧
    (∀ name, (r.definedSlots.map fun slot => slot.2.name).count name =
      if (s.idOf? name).any r.isDefined then 1 else 0) ∧
    (∀ id, id.slot < r.size → s.idOf? (r.nameOf (.user id)) = some id) ∧
    ∀ name id, s.idOf? name = some id → r.nameOf (.user id) = name := by
  intro s r
  obtain ⟨hplain, hstep⟩ : s.plain = r ∧ s.InStep := run_inStep inStep_empty events
  have hindex : ∀ name, s.idOf? name = r.idOf? name := fun name => hplain ▸ hstep.index name
  have hnames : r.NamesDistinct := namesDistinct_empty.run events
  refine ⟨hplain, hindex, ?_, ?_, ?_, ?_, ?_, ?_⟩
  · intro id x hx
    rw [hindex]
    exact hnames.idOf?_name hx
  · intro name id hid
    rw [hindex] at hid
    obtain ⟨x, hx, hname⟩ := exists_of_idOf? hid
    exact ⟨slot_lt_size hx, x, hx, hname⟩
  · intro i j x y hx hy hname
    have hi := hnames.idOf?_name hx
    rw [hname, hnames.idOf?_name hy] at hi
    exact (Option.some.inj hi).symm
  · intro name
    rw [hindex]
    exact hnames.count_definedSlots name
  · intro id hid
    obtain ⟨x, hx⟩ : ∃ x, r.get? id = some x := ⟨_, List.getElem?_eq_getElem hid⟩
    rw [hindex, nameOf_user hx]
    exact hnames.idOf?_name hx
  · intro name id hid
    rw [hindex] at hid
    obtain ⟨x, hx, hname⟩ := exists_of_idOf? hid
    rw [nameOf_user hx, hname]

/-- An element that is first referred to behind an array, then imported, then defined. -/
theorem index_invariant_element :
    let name := QualifiedName.ofParts "paint" "Colour"
    let events : List Event := [
      .resolve .unknown ⟨QualifiedName.builtinNamespace, TypeRef.arrayName, [name]⟩,
      .addImport name, .register name (.object { fields := [] })]
    let r := Registry.run {} events
    (run {} events).idOf? name = some ⟨0⟩ ∧ r.nameOf (.user ⟨0⟩) = name ∧
      (r.definedSlots.map fun slot => slot.2.name).count name = 1 := by
  intro name events r
  obtain ⟨-, -, hslot, -, -, hcount, -, hname⟩ := index_invariant events
  have hx : r.get? ⟨0⟩ = some ⟨.object (.defined name { fields := [] }), .unknown⟩ := rfl
  have hid : (run {} events).idOf? name = some ⟨0⟩ := hslot ⟨0⟩ _ hx
  refine ⟨hid, hname name ⟨0⟩ hid, ?_⟩
  rw [hcount name, hid]
  rfl

end Indexed

end SemanticSchema.Registry
