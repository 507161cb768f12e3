import SemanticSchema.Proofs.Registry.Growth
import SemanticSchema.Proofs.Registry.Indexed

/-!
# What is left unresolved

At the end of a run the registry reports the records that have no definition. Here the report is read
off the run itself: which names were given an undefined record by some reference, where, and which
names were defined at some time, before or after.

* `Registry.allocated`, `Registry.defines` : what a single operation allocates and defines;
* `Registry.allocatedIn`, `Registry.definedIn` : the same of a run, in the order of the operations;
* `Registry.placeholders_apply` : one operation adds what it allocates to the placeholders, and takes
  away what it defines;
* `Registry.placeholders_run` : so at the end those are left that were allocated and never defined;
* `Registry.unresolved_run` : and they are what is reported.
-/

set_option autoImplicit false

namespace SemanticSchema.Registry

/-- A name that was given an undefined record, and the place of the reference that did so. -/
structure Placeholder where
  name : QualifiedName
  origin : Span

/-- The report on a placeholder that was never defined. -/
def Placeholder.report (p : Placeholder) : Diagnostic :=
  .error .unresolvedType p.origin (p.name.display ++ " is not defined")

/-! ## The history of a run -/

/-- The place that an operation passes for the name it refers to. -/
def Event.reference? : Event → Option Span
  | .resolve origin _ => some origin
  | .extend _ e => some e.span
  | .register _ _ => none
  | .addImport _ => none

/-- The names that an operation which refers to a name is the first to give a record. -/
def allocated (r : Registry) (e : Event) : List Placeholder :=
  match e.reference? with
  | none => []
  | some origin => ((r.apply e).names.drop r.size).map fun name => ⟨name, origin⟩

/-- The name that an operation defines, if the definition is accepted. -/
def defines (r : Registry) : Event → List QualifiedName
  | .register name d =>
    match r.register name d with
    | .ok _ => [name]
    | .error _ => []
  | .resolve _ _ => []
  | .extend _ _ => []
  | .addImport _ => []

/-- The placeholders of a run, in the order in which they are allocated. -/
def allocatedIn (r : Registry) : List Event → List Placeholder
  | [] => []
  | e :: es => r.allocated e ++ (r.apply e).allocatedIn es

/-- The names that are defined in a run. -/
def definedIn (r : Registry) : List Event → List QualifiedName
  | [] => []
  | e :: es => r.defines e ++ (r.apply e).definedIn es

variable {r : Registry} {name : QualifiedName} {id : TypeId} {x : Record}

theorem defines_of_ok {d : TypeDefinition} {result : TypeId × Registry} (h : r.register name d = .ok result) :
    r.defines (.register name d) = [name] := by
  simp only [defines, h]

theorem defines_of_error {d : TypeDefinition} {e : RegistryError} (h : r.register name d = .error e) :
    r.defines (.register name d) = [] := by
  simp only [defines, h]

theorem names_apply_eq (r : Registry) (e : Event) :
    (r.apply e).names = r.names ++ (r.apply e).names.drop r.size := by
  have hprefix : r.names <+: (r.apply e).names := Grows.names_prefix (grows_run r [e])
  rw [← length_names]
  exact (List.prefix_iff_eq_append.1 hprefix).symm

theorem name_of_mem_allocated {e : Event} {p : Placeholder} (h : r.NamesDistinct) (hp : p ∈ r.allocated e) :
    p.name ∉ r.names ∧ p.name ∈ (r.apply e).names := by
  have hdistinct : (r.apply e).NamesDistinct := h.apply e
  rw [NamesDistinct, names_apply_eq] at hdistinct
  have hnew : p.name ∈ (r.apply e).names.drop r.size := by
    unfold allocated at hp
    split at hp
    · cases hp
    · obtain ⟨n, hn, rfl⟩ := List.mem_map.1 hp
      exact hn
  exact ⟨fun hold => (List.nodup_append.1 hdistinct).2.2 _ hold _ hnew rfl, List.mem_of_mem_drop hnew⟩

theorem nodup_allocated (h : r.NamesDistinct) (e : Event) : ((r.allocated e).map Placeholder.name).Nodup := by
  unfold allocated
  split
  · exact List.nodup_nil
  · rw [List.map_map]
    show ((List.drop r.size (r.apply e).names).map id).Nodup
    rw [List.map_id]
    exact (h.apply e).sublist (List.drop_sublist ..)

theorem name_of_mem_allocatedIn {events : List Event} {p : Placeholder} (h : r.NamesDistinct)
    (hp : p ∈ r.allocatedIn events) : p.name ∉ r.names := by
  induction events generalizing r with
  | nil => cases hp
  | cons e es ih =>
    rcases List.mem_append.1 hp with hp | hp
    · exact (name_of_mem_allocated h hp).1
    · intro hold
      refine ih (h.apply e) hp ?_
      rw [names_apply_eq]
      exact List.mem_append_left _ hold

/-- A name is allocated at most once, since it has a record from then on. -/
theorem nodup_allocatedIn (h : r.NamesDistinct) (events : List Event) :
    ((r.allocatedIn events).map Placeholder.name).Nodup := by
  induction events generalizing r with
  | nil => exact List.nodup_nil
  | cons e es ih =>
    rw [allocatedIn, List.map_append]
    refine List.nodup_append.2 ⟨nodup_allocated h e, ih (h.apply e), ?_⟩
    rintro a ha b hb rfl
    obtain ⟨p, hp, rfl⟩ := List.mem_map.1 ha
    obtain ⟨q, hq, hname⟩ := List.mem_map.1 hb
    refine name_of_mem_allocatedIn (h.apply e) hq ?_
    rw [hname]
    exact (name_of_mem_allocated h hp).2

/-! ## The placeholders of a registry -/

/-- The undefined records among some records. -/
def placeholdersOf (xs : List Record) : List Placeholder :=
  (xs.filter (!·.isDefined)).map fun x => ⟨x.name, x.origin⟩

/-- The undefined records, in the order of the slots. -/
def placeholders (r : Registry) : List Placeholder := placeholdersOf r.records

theorem unresolved_eq_map_placeholders (r : Registry) : r.unresolved = r.placeholders.map Placeholder.report := by
  rw [placeholders, placeholdersOf, List.map_map]
  rfl

theorem placeholdersOf_append (xs ys : List Record) :
    placeholdersOf (xs ++ ys) = placeholdersOf xs ++ placeholdersOf ys := by
  rw [placeholdersOf, List.filter_append, List.map_append]
  rfl

theorem placeholdersOf_cons (x : Record) (xs : List Record) :
    placeholdersOf (x :: xs) = (if x.isDefined then [] else [⟨x.name, x.origin⟩]) ++ placeholdersOf xs := by
  unfold placeholdersOf
  cases hdefined : x.isDefined with
  | true => rw [List.filter_cons_of_neg (by simp [hdefined])]; rfl
  | false => rw [List.filter_cons_of_pos (by simp [hdefined])]; rfl

theorem placeholdersOf_cons_congr {y : Record} {xs : List Record} (hname : y.name = x.name)
    (horigin : y.origin = x.origin) (hdefined : y.isDefined = x.isDefined) :
    placeholdersOf (y :: xs) = placeholdersOf (x :: xs) := by
  rw [placeholdersOf_cons, placeholdersOf_cons, hname, horigin, hdefined]

theorem name_of_mem_placeholdersOf {xs : List Record} {p : Placeholder} (hp : p ∈ placeholdersOf xs) :
    p.name ∈ xs.map Record.name := by
  obtain ⟨x, hx, rfl⟩ := List.mem_map.1 hp
  exact List.mem_map_of_mem (List.mem_filter.1 hx).1

theorem filter_placeholdersOf {xs : List Record} (hname : name ∉ xs.map Record.name) :
    (placeholdersOf xs).filter (·.name ∉ [name]) = placeholdersOf xs := by
  refine List.filter_eq_self.2 fun p hp => ?_
  have hne : p.name ≠ name := fun heq => hname (heq ▸ name_of_mem_placeholdersOf hp)
  simpa using hne

theorem filter_name_notMem_nil (ps : List Placeholder) :
    ps.filter (·.name ∉ ([] : List QualifiedName)) = ps :=
  List.filter_eq_self.2 fun _ _ => decide_eq_true List.not_mem_nil

theorem placeholders_push (r : Registry) (body : TypeBody) (origin : Span) :
    (r.push body origin).2.placeholders =
      r.placeholders ++ if body.isDefined then [] else [⟨body.name, origin⟩] := by
  show placeholdersOf (r.records ++ [⟨body, origin⟩]) = _
  rw [placeholdersOf_append, placeholdersOf_cons]
  exact congrArg _ (List.append_nil _)

/-- The records before and behind a slot, which writing the slot leaves alone. -/
theorem exists_split (hx : r.get? id = some x) :
    ∃ before after, r.records = before ++ x :: after ∧
      ∀ body, (r.setBody id body).records = before ++ { x with body := body } :: after := by
  obtain ⟨hlt, rfl⟩ := List.getElem?_eq_some_iff.1 hx
  refine ⟨r.records.take id.slot, r.records.drop (id.slot + 1), ?_, fun body => ?_⟩
  · rw [List.getElem_cons_drop, List.take_append_drop]
  · exact List.modify_eq_take_cons_drop hlt

theorem placeholders_filled {d : TypeDefinition} {body : TypeBody} (h : r.NamesDistinct)
    (hx : r.get? id = some x) (hfilled : x.body.Filled d body) :
    (r.setBody id body).placeholders = r.placeholders.filter (·.name ∉ [x.name]) := by
  obtain ⟨before, after, hrecords, hset⟩ := exists_split hx
  have hdefined : body.isDefined = true := by rw [TypeBody.isDefined_eq, hfilled.definition]; rfl
  have hundefined : x.isDefined = false := hfilled.undefined
  rw [NamesDistinct, names, hrecords, List.map_append, List.map_cons, List.nodup_append, List.nodup_cons] at h
  -- No other record bears the name, so the filter takes out this record alone.
  obtain ⟨-, ⟨hafter, -⟩, hbefore⟩ := h
  have hbefore : x.name ∉ before.map Record.name := fun hmem => hbefore _ hmem _ List.mem_cons_self rfl
  rw [placeholders, placeholders, hset, hrecords, placeholdersOf_append, placeholdersOf_append,
    placeholdersOf_cons, placeholdersOf_cons, hundefined, List.filter_append, List.filter_append,
    filter_placeholdersOf hbefore, filter_placeholdersOf hafter]
  simp [Record.isDefined, hdefined]

theorem placeholders_extended {e : TypeExtension} {body : TypeBody} (hx : r.get? id = some x)
    (hextended : x.body.Extended e body) : (r.setBody id body).placeholders = r.placeholders := by
  obtain ⟨before, after, hrecords, hset⟩ := exists_split hx
  have hdefined : body.isDefined = x.body.isDefined := by
    rw [TypeBody.isDefined_eq, TypeBody.isDefined_eq, hextended.definition]
  have hrecord : placeholdersOf ({ x with body := body } :: after) = placeholdersOf (x :: after) :=
    placeholdersOf_cons_congr hextended.name rfl hdefined
  rw [placeholders, placeholders, hset, hrecords, placeholdersOf_append, placeholdersOf_append, hrecord]

/-! ## One operation -/

/-- A name that has no meaning yet, and no other, becomes a placeholder. -/
theorem placeholders_resolve (r : Registry) (origin : Span) (name : QualifiedName) :
    (r.resolve origin name).2.placeholders =
      r.placeholders ++ ((r.resolve origin name).2.names.drop r.size).map fun n => ⟨n, origin⟩ := by
  cases hmeaning : r.meaning? name.element with
  | some t =>
    rw [resolve_eq_of_known hmeaning, ← length_names, List.drop_length]
    exact (List.append_nil _).symm
  | none =>
    rw [resolve_eq_of_unknown hmeaning, placeholders_push, names_push, ← length_names, List.drop_left]
    rfl

theorem placeholders_extend_eq_slot (r : Registry) (name : QualifiedName) (e : TypeExtension) :
    (r.extend name e).2.placeholders = (r.extensionSlot name e).2.placeholders ∧
      (r.extend name e).2.names = (r.extensionSlot name e).2.names := by
  cases h : r.extend name e with
  | mk refusal r' =>
    cases refusal with
    | none =>
      obtain ⟨id, x, body, hx, hextend, rfl⟩ := extend_accepted h
      have hextended := TypeBody.extended_of_extend hextend
      exact ⟨placeholders_extended hx hextended, names_setBody hx hextended.name⟩
    | some refusal =>
      obtain rfl := extend_refused h
      exact ⟨rfl, rfl⟩

theorem placeholders_extend (r : Registry) (name : QualifiedName) (e : TypeExtension) :
    (r.extend name e).2.placeholders =
      r.placeholders ++ ((r.extend name e).2.names.drop r.size).map fun n => ⟨n, e.span⟩ := by
  obtain ⟨hplaceholders, hnames⟩ := placeholders_extend_eq_slot r name e
  rw [hplaceholders, hnames, extensionSlot_snd]
  split
  · exact placeholders_resolve r e.span name
  · rw [← length_names, List.drop_length]
    exact (List.append_nil _).symm

/-- A definition that is accepted leaves every placeholder but that of its name. -/
theorem placeholders_register {d : TypeDefinition} {r' : Registry} (h : r.NamesDistinct)
    (hregister : r.register name d = .ok (id, r')) :
    r'.placeholders = r.placeholders.filter (·.name ∉ [name]) := by
  rcases register_ok_cases hregister with ⟨hnew, -, rfl⟩ | ⟨x, body, hid, hx, hfill, rfl⟩
  · rw [placeholders_push, TypeDefinition.isDefined_toBody, placeholders,
      filter_placeholdersOf (idOf?_eq_none_iff.1 hnew)]
    exact List.append_nil _
  · obtain ⟨y, hy, rfl⟩ := exists_of_idOf? hid
    obtain rfl : x = y := Option.some.inj (hx.symm.trans hy)
    exact placeholders_filled h hx (filled_of_fill hfill)

/-- One operation: the placeholders there were and those that it allocates, without what it defines. -/
theorem placeholders_apply (h : r.NamesDistinct) (e : Event) :
    (r.apply e).placeholders = (r.placeholders ++ r.allocated e).filter (·.name ∉ r.defines e) := by
  cases e with
  | resolve origin name =>
    rw [defines, filter_name_notMem_nil]
    exact placeholders_resolve r origin name
  | extend name e =>
    rw [defines, filter_name_notMem_nil]
    exact placeholders_extend r name e
  | addImport name =>
    have hrecords : (r.addImport name).records = r.records := by
      unfold addImport
      split <;> rfl
    rw [defines, filter_name_notMem_nil, placeholders, apply, hrecords]
    exact (List.append_nil _).symm
  | register name d =>
    have hnone : r.allocated (.register name d) = [] := rfl
    rw [hnone, List.append_nil]
    cases hregister : r.register name d with
    | error refusal => rw [apply_eq_of_register_error hregister, defines_of_error hregister,
        filter_name_notMem_nil]
    | ok result =>
      rw [apply_eq_of_register_ok hregister, defines_of_ok hregister]
      exact placeholders_register h hregister

/-! ## Runs -/

theorem mem_names_of_register {d : TypeDefinition} {r' : Registry} (h : r.register name d = .ok (id, r')) :
    name ∈ r'.names := by
  rcases register_ok_cases h with ⟨-, -, rfl⟩ | ⟨x, body, hid, hx, hfill, rfl⟩
  · simp
  · obtain ⟨y, hy, rfl⟩ := exists_of_idOf? hid
    rw [names_setBody hx (filled_of_fill hfill).name]
    exact mem_names_of_get? hy

theorem mem_names_of_mem_defines {e : Event} (hname : name ∈ r.defines e) : name ∈ (r.apply e).names := by
  cases e with
  | register n d =>
    cases hregister : r.register n d with
    | error refusal => rw [defines_of_error hregister] at hname; cases hname
    | ok result =>
      rw [defines_of_ok hregister] at hname
      obtain rfl := List.mem_singleton.1 hname
      rw [apply_eq_of_register_ok hregister]
      exact mem_names_of_register hregister
  | resolve origin n => cases hname
  | extend n e => cases hname
  | addImport n => cases hname

/-- After a run those placeholders are left that were there or were allocated, and were not defined,
no matter when. -/
theorem placeholders_run (h : r.NamesDistinct) (events : List Event) :
    (r.run events).placeholders =
      (r.placeholders ++ r.allocatedIn events).filter (·.name ∉ r.definedIn events) := by
  induction events generalizing r with
  | nil =>
    rw [allocatedIn, List.append_nil, definedIn, filter_name_notMem_nil]
    rfl
  | cons e es ih =>
    -- What this operation defines has a record from now on, so nothing allocates its name again.
    have hlater : ((r.apply e).allocatedIn es).filter (·.name ∉ r.defines e) = (r.apply e).allocatedIn es := by
      refine List.filter_eq_self.2 fun p hp => decide_eq_true fun hdefined => ?_
      exact name_of_mem_allocatedIn (h.apply e) hp (mem_names_of_mem_defines hdefined)
    calc (r.run (e :: es)).placeholders
      _ = ((r.apply e).placeholders ++ (r.apply e).allocatedIn es).filter
            (·.name ∉ (r.apply e).definedIn es) := ih (h.apply e)
      _ = ((r.placeholders ++ r.allocated e ++ (r.apply e).allocatedIn es).filter
            (·.name ∉ r.defines e)).filter (·.name ∉ (r.apply e).definedIn es) := by
          rw [placeholders_apply h e, List.filter_append (r.placeholders ++ r.allocated e) (allocatedIn _ es),
            hlater]
      _ = (r.placeholders ++ r.allocatedIn (e :: es)).filter (·.name ∉ r.definedIn (e :: es)) := by
          rw [List.filter_filter, allocatedIn, List.append_assoc, definedIn]
          refine List.filter_congr fun p _ => ?_
          simp [not_or, and_comm]

/-- What is left unresolved at the end of a run is exactly what was allocated in it and never
defined: nothing if every such name was defined at some time, and otherwise one report on each, in
the order of the allocations, at the place of the reference that allocated it. A name is allocated
at most once, and a registry that keeps a table of first references reports the same. -/
theorem unresolved_run (events : List Event) :
    let r := run {} events
    let allocated := allocatedIn {} events
    let defined := definedIn {} events
    (r.unresolved = [] ↔ ∀ p ∈ allocated, p.name ∈ defined) ∧
    r.unresolved = (allocated.filter (·.name ∉ defined)).map Placeholder.report ∧
    (allocated.map Placeholder.name).Nodup ∧
    (Indexed.run {} events).unresolved = r.unresolved := by
  intro r allocated defined
  have hunresolved : r.unresolved = (allocated.filter (·.name ∉ defined)).map Placeholder.report := by
    rw [unresolved_eq_map_placeholders, placeholders_run namesDistinct_empty]
    rfl
  refine ⟨?_, hunresolved, nodup_allocatedIn namesDistinct_empty events, ?_⟩
  · rw [hunresolved, List.map_eq_nil_iff, List.filter_eq_nil_iff]
    simp only [decide_eq_true_eq, not_not]
  · obtain ⟨hplain, hstep⟩ := Indexed.run_inStep Indexed.inStep_empty events
    rw [Indexed.unresolved_eq hstep, hplain]
    rfl

/-- An array of colours is referred to, then a shade, then a colour; only the shade is ever defined. -/
theorem unresolved_run_forward_references :
    let colour := QualifiedName.ofParts "paint" "Colour"
    let shade := QualifiedName.ofParts "paint" "Shade"
    let line (n : Nat) : Span := ⟨0, 0, 1, n⟩
    let events : List Event := [
      .resolve (line 1) ⟨QualifiedName.builtinNamespace, TypeRef.arrayName, [colour]⟩,
      .resolve (line 2) shade, .resolve (line 3) colour, .register shade (.enum { members := [] })]
    allocatedIn {} events = [⟨colour, line 1⟩, ⟨shade, line 2⟩] ∧ definedIn {} events = [shade] ∧
      (run {} events).unresolved = [Placeholder.report ⟨colour, line 1⟩] := by
  intro colour shade line events
  have hallocated : allocatedIn {} events = [⟨colour, line 1⟩, ⟨shade, line 2⟩] := rfl
  have hdefined : definedIn {} events = [shade] := rfl
  refine ⟨hallocated, hdefined, ?_⟩
  rw [(unresolved_run events).2.1, hallocated, hdefined]
  rfl

end SemanticSchema.Registry
