import SemanticSchema.Proofs.Registry.Unresolved

/-!
# Imported names

A name is looked up among the built-ins, then among the records, then among the imports. Records and
imports only grow, and neither looks at the other. So an imported name that comes to be defined means
its record from then on, and a name that has a record before it is imported keeps it.

* `QualifiedName.builtin?`, `Registry.meaning?_eq` : what a name means, in the order of the look-up;
* `Registry.isImported_run` : what a run imports;
* `Registry.RefersTo` : the name that an operation looks up;
* `Registry.mem_allocatedIn_iff`, `Registry.mem_names_run_iff` : which names a run gives records;
* `Registry.resolve_resolved` : resolving a name once more gives the same and records nothing;
* `Registry.resolve_again` : exactly when a name resolves to another type later;
* `Registry.unresolved_names_iff` : exactly which names are reported at the end, imported or not.
-/

set_option autoImplicit false

namespace SemanticSchema

/-- The built-in type that a name means. -/
def QualifiedName.builtin? (name : QualifiedName) : Option TypeRef :=
  match Primitive.ofName? name with
  | some p => some (.primitive p)
  | none => if name.isBuiltin TypeRef.voidName then some .void else none

namespace Registry

variable {r : Registry} {e : Event} {events : List Event} {name : QualifiedName}

/-! ## Looking names up -/

/-- What a name means: a built-in, else a recorded type, else an imported one. -/
theorem meaning?_eq (r : Registry) (name : QualifiedName) :
    r.meaning? name = name.builtin?.or (((r.idOf? name).map .user).or
      (if r.isImported name then some (.imported name) else none)) := by
  unfold meaning? QualifiedName.builtin?
  cases Primitive.ofName? name with
  | some p => rfl
  | none =>
    simp only
    split_ifs
    · rfl
    all_goals cases r.idOf? name <;> rfl

theorem meaning?_eq_none_iff :
    r.meaning? name = none ↔ name.builtin? = none ∧ name ∉ r.names ∧ r.isImported name = false := by
  rw [meaning?_eq, Option.or_eq_none_iff, Option.or_eq_none_iff, Option.map_eq_none_iff, idOf?_eq_none_iff]
  simp

theorem builtin?_ne_imported (name other : QualifiedName) : name.builtin? ≠ some (.imported other) := by
  unfold QualifiedName.builtin?
  split
  · nofun
  · split <;> nofun

theorem meaning?_eq_some_iff {t : TypeRef} :
    r.meaning? name = some t ↔ name.builtin? = some t ∨ name.builtin? = none ∧
      ((∃ id, r.idOf? name = some id ∧ t = .user id) ∨
        name ∉ r.names ∧ r.isImported name = true ∧ t = .imported name) := by
  rw [meaning?_eq, Option.or_eq_some_iff, Option.or_eq_some_iff, Option.map_eq_none_iff, idOf?_eq_none_iff,
    Option.map_eq_some_iff]
  simp only [Option.ite_none_right_eq_some, Option.some.injEq, eq_comm (b := t)]

theorem names_resolve (r : Registry) (origin : Span) (name : QualifiedName) :
    (r.resolve origin name).2.names =
      r.names ++ if r.meaning? name.element = none then [name.element] else [] := by
  cases h : r.meaning? name.element with
  | some t => rw [resolve_eq_of_known h, if_neg (Option.some_ne_none t), List.append_nil]
  | none => rw [resolve_eq_of_unknown h, if_pos rfl, names_push]; rfl

/-! ## What a run imports -/

theorem imports_resolve (r : Registry) (origin : Span) (name : QualifiedName) :
    (r.resolve origin name).2.imports = r.imports := by
  cases h : r.meaning? name.element with
  | some t => rw [resolve_eq_of_known h]
  | none => rw [resolve_eq_of_unknown h]; rfl

theorem imports_extend (r : Registry) (name : QualifiedName) (e : TypeExtension) :
    (r.extend name e).2.imports = r.imports := by
  have hslot : (r.extensionSlot name e).2.imports = r.imports := by
    rw [extensionSlot_snd]
    split
    · exact imports_resolve r e.span name
    · rfl
  cases h : r.extend name e with
  | mk refusal r' =>
    cases refusal with
    | none =>
      obtain ⟨id, x, body, -, -, rfl⟩ := extend_accepted h
      exact hslot
    | some refusal =>
      obtain rfl := extend_refused h
      exact hslot

theorem isImported_addImport {other : QualifiedName} :
    (r.addImport other).isImported name = true ↔ r.isImported name = true ∨ other = name := by
  unfold addImport
  split
  · next h =>
    refine ⟨Or.inl, ?_⟩
    rintro (himported | rfl)
    · exact himported
    · exact h
  · rw [isImported, isImported, List.contains_iff_mem, List.contains_iff_mem, List.mem_append,
      List.mem_singleton]
    exact or_congr_right eq_comm

theorem isImported_apply :
    (r.apply e).isImported name = true ↔ r.isImported name = true ∨ e = .addImport name := by
  have hsame : ∀ {r' : Registry}, r'.imports = r.imports → e ≠ .addImport name →
      (r'.isImported name = true ↔ r.isImported name = true ∨ e = .addImport name) := by
    intro r' himports hne
    rw [isImported, himports]
    exact ⟨Or.inl, fun h => h.resolve_right hne⟩
  cases e with
  | resolve origin other => exact hsame (imports_resolve r origin other) (by simp)
  | extend other e => exact hsame (imports_extend r other e) (by simp)
  | addImport other => rw [apply, isImported_addImport, Event.addImport.injEq]
  | register other d =>
    refine hsame ?_ (by simp)
    cases h : r.register other d with
    | error refusal => rw [apply_eq_of_register_error h]
    | ok result =>
      rw [apply_eq_of_register_ok h]
      rcases register_ok_cases h with ⟨-, -, hresult⟩ | ⟨x, body, -, -, -, hresult⟩
      · rw [hresult]; rfl
      · rw [hresult]; rfl

/-- What is imported stays imported. -/
theorem isImported_run :
    (r.run events).isImported name = true ↔ r.isImported name = true ∨ .addImport name ∈ events := by
  induction events generalizing r with
  | nil => simp [run]
  | cons e es ih =>
    show ((r.apply e).run es).isImported name = true ↔ _
    rw [ih, isImported_apply, List.mem_cons, or_assoc]
    exact or_congr_right (or_congr_left eq_comm)

/-! ## What a run records -/

/-- Whether an operation looks a name up, behind its array layers. A reference does, and so does an
object extension of a name without a record. -/
def RefersTo (r : Registry) (e : Event) (name : QualifiedName) : Prop :=
  match e with
  | .resolve _ n => n.element = name
  | .extend n e => n.element = name ∧ r.idOf? n = none ∧ e.kind = .object
  | .register _ _ => False
  | .addImport _ => False

theorem map_name_allocated {origin : Span} (h : e.reference? = some origin) :
    (r.allocated e).map Placeholder.name = (r.apply e).names.drop r.size := by
  simp only [allocated, h, List.map_map]
  exact List.map_id _

theorem drop_names_resolve (r : Registry) (origin : Span) (name : QualifiedName) :
    (r.resolve origin name).2.names.drop r.size =
      if r.meaning? name.element = none then [name.element] else [] := by
  rw [names_resolve, ← length_names, List.drop_left]

theorem allocatedIn_append (r : Registry) (before after : List Event) :
    r.allocatedIn (before ++ after) = r.allocatedIn before ++ (r.run before).allocatedIn after := by
  induction before generalizing r with
  | nil => rfl
  | cons e es ih => rw [List.cons_append, allocatedIn, ih, allocatedIn, List.append_assoc]; rfl

theorem definedIn_append (r : Registry) (before after : List Event) :
    r.definedIn (before ++ after) = r.definedIn before ++ (r.run before).definedIn after := by
  induction before generalizing r with
  | nil => rfl
  | cons e es ih => rw [List.cons_append, definedIn, ih, definedIn, List.append_assoc]; rfl

/-- An operation gives a record to the name that it looks up, if that stands for nothing yet. -/
theorem mem_allocated_iff :
    name ∈ (r.allocated e).map Placeholder.name ↔ r.RefersTo e name ∧ r.meaning? name = none := by
  have hlookup : ∀ n : QualifiedName, name ∈ (if r.meaning? n.element = none then [n.element] else []) ↔
      n.element = name ∧ r.meaning? name = none := by
    intro n
    split
    · next h =>
      rw [List.mem_singleton]
      constructor
      · rintro rfl
        exact ⟨rfl, h⟩
      · rintro ⟨rfl, -⟩
        rfl
    · next h =>
      refine ⟨fun hmem => absurd hmem List.not_mem_nil, ?_⟩
      rintro ⟨rfl, hnone⟩
      exact absurd hnone h
  cases e with
  | resolve origin n =>
    rw [map_name_allocated rfl, apply, drop_names_resolve, hlookup]
    rfl
  | extend n e =>
    rw [map_name_allocated rfl, apply, (placeholders_extend_eq_slot r n e).2, extensionSlot_snd]
    split
    · next h =>
      rw [drop_names_resolve, hlookup]
      simp [RefersTo, h]
    · next h =>
      rw [← length_names, List.drop_length]
      exact ⟨fun hmem => absurd hmem List.not_mem_nil, fun hrefers => absurd hrefers.1.2 h⟩
  | register n d => exact ⟨fun hmem => absurd hmem List.not_mem_nil, fun h => h.1.elim⟩
  | addImport n => exact ⟨fun hmem => absurd hmem List.not_mem_nil, fun h => h.1.elim⟩

theorem mem_names_apply_iff :
    name ∈ (r.apply e).names ↔
      name ∈ r.names ∨ name ∈ (r.allocated e).map Placeholder.name ∨ name ∈ r.defines e := by
  have hkept : name ∈ r.names → name ∈ (r.apply e).names := by
    intro h
    rw [names_apply_eq]
    exact List.mem_append_left _ h
  constructor
  · intro h
    rw [names_apply_eq] at h
    refine (List.mem_append.1 h).imp_right fun hnew => ?_
    cases e with
    | resolve origin n => exact Or.inl (by rw [map_name_allocated rfl]; exact hnew)
    | extend n e => exact Or.inl (by rw [map_name_allocated rfl]; exact hnew)
    | addImport n =>
      have hnames : (r.apply (.addImport n)).names = r.names := by
        simp only [apply, addImport]
        split <;> rfl
      rw [hnames, ← length_names, List.drop_length] at hnew
      cases hnew
    | register n d =>
      refine Or.inr ?_
      cases hregister : r.register n d with
      | error refusal =>
        rw [apply_eq_of_register_error hregister, ← length_names, List.drop_length] at hnew
        cases hnew
      | ok result =>
        rw [defines_of_ok hregister]
        rw [apply_eq_of_register_ok hregister] at hnew
        rcases register_ok_cases hregister with ⟨-, -, hresult⟩ | ⟨x, body, -, hx, hfill, hresult⟩
        · rw [hresult, names_push, TypeDefinition.name_toBody, ← length_names, List.drop_left] at hnew
          exact hnew
        · rw [hresult, names_setBody hx (filled_of_fill hfill).name, ← length_names, List.drop_length] at hnew
          cases hnew
  · rintro (hold | hallocated | hdefined)
    · exact hkept hold
    · obtain ⟨p, hp, rfl⟩ := List.mem_map.1 hallocated
      unfold allocated at hp
      split at hp
      · cases hp
      · obtain ⟨n, hn, rfl⟩ := List.mem_map.1 hp
        exact List.mem_of_mem_drop hn
    · exact mem_names_of_mem_defines hdefined

/-- After a run those names have records that had one, that a reference was the first to mention, or
that were defined. -/
theorem mem_names_run_iff :
    name ∈ (r.run events).names ↔
      name ∈ r.names ∨ name ∈ (r.allocatedIn events).map Placeholder.name ∨ name ∈ r.definedIn events := by
  induction events generalizing r with
  | nil => simp [run, allocatedIn, definedIn]
  | cons e es ih =>
    show name ∈ ((r.apply e).run es).names ↔ _
    rw [ih, mem_names_apply_iff, allocatedIn, definedIn, List.map_append, List.mem_append, List.mem_append]
    tauto

/-- A name gets its record from the first operation that looks it up while it stands for nothing. -/
theorem mem_allocatedIn_iff :
    name ∈ (r.allocatedIn events).map Placeholder.name ↔
      ∃ earlier e later, events = earlier ++ e :: later ∧ (r.run earlier).RefersTo e name ∧
        (r.run earlier).meaning? name = none := by
  induction events generalizing r with
  | nil => simp [allocatedIn]
  | cons e es ih =>
    rw [allocatedIn, List.map_append, List.mem_append, mem_allocated_iff, ih]
    constructor
    · rintro (h | ⟨earlier, e', later, rfl, h⟩)
      · exact ⟨[], e, es, rfl, h⟩
      · exact ⟨e :: earlier, e', later, rfl, h⟩
    · rintro ⟨earlier, e', later, hsplit, h⟩
      cases earlier with
      | nil =>
        obtain ⟨rfl, rfl⟩ := List.cons.inj hsplit
        exact Or.inl h
      | cons first earlier =>
        obtain ⟨rfl, rfl⟩ := List.cons.inj hsplit
        exact Or.inr ⟨earlier, e', later, rfl, h⟩

theorem notMem_allocatedIn_of_isImported (h : r.isImported name = true) :
    name ∉ (r.allocatedIn events).map Placeholder.name := by
  intro hmem
  obtain ⟨earlier, e, later, -, -, hmeaning⟩ := mem_allocatedIn_iff.1 hmem
  have himported : (r.run earlier).isImported name = true := isImported_run.2 (Or.inl h)
  rw [(meaning?_eq_none_iff.1 hmeaning).2.2] at himported
  cases himported

/-- A name that is imported and has no record gets one only by a definition. -/
theorem mem_names_run_of_isImported (h : r.isImported name = true) (hnew : name ∉ r.names) :
    name ∈ (r.run events).names ↔ name ∈ r.definedIn events := by
  rw [mem_names_run_iff]
  exact ⟨fun hmem => (hmem.resolve_left hnew).resolve_left (notMem_allocatedIn_of_isImported h),
    fun hdefined => Or.inr (Or.inr hdefined)⟩

/-! ## One name, one type -/

theorem exists_meaning_of_resolve (r : Registry) (origin : Span) (name : QualifiedName) :
    ∃ t, (r.resolve origin name).1 = TypeRef.array^[name.arrayLayers] t ∧
      (r.resolve origin name).2.meaning? name.element = some t := by
  cases h : r.meaning? name.element with
  | some t =>
    rw [resolve_eq_of_known h]
    exact ⟨t, rfl, h⟩
  | none =>
    rw [resolve_eq_of_unknown h]
    obtain ⟨hbuiltin, hnew, -⟩ := meaning?_eq_none_iff.1 h
    have hid := idOf?_push_self (.object (.undefined name.element)) origin (idOf?_eq_none_iff.2 hnew)
    exact ⟨_, rfl, meaning?_eq_some_iff.2 (Or.inr ⟨hbuiltin, Or.inl ⟨_, hid, rfl⟩⟩)⟩

/-- A name that has just been resolved comes to the same type wherever it is used, and adds nothing. -/
theorem resolve_resolved (r : Registry) (origin origin' : Span) (name : QualifiedName) :
    (r.resolve origin name).2.resolve origin' name = r.resolve origin name := by
  obtain ⟨t, hresolve, hmeaning⟩ := exists_meaning_of_resolve r origin name
  rw [resolve_eq_of_known hmeaning, ← hresolve]

/-- What a name means it means from then on, unless it is imported and comes to be defined. -/
theorem meaning?_run {t : TypeRef} (h : r.meaning? name = some t)
    (hkept : ¬ (t = .imported name ∧ name ∈ r.definedIn events)) : (r.run events).meaning? name = some t := by
  rw [meaning?_eq_some_iff] at h ⊢
  refine h.imp_right fun ⟨hbuiltin, h⟩ => ⟨hbuiltin, ?_⟩
  rcases h with ⟨id, hid, ht⟩ | ⟨hnew, himported, ht⟩
  · exact Or.inl ⟨id, (grows_run r events).idOf? hid, ht⟩
  · have hundefined : name ∉ r.definedIn events := fun hdefined => hkept ⟨ht, hdefined⟩
    exact Or.inr ⟨mt (mem_names_run_of_isImported himported hnew).1 hundefined, isImported_run.2 (Or.inl himported), ht⟩

/-- An imported name that is defined means the definition. -/
theorem meaning?_run_of_defined (h : r.meaning? name = some (.imported name)) (hdefined : name ∈ r.definedIn events) :
    ∃ id, (r.run events).idOf? name = some id ∧ (r.run events).meaning? name = some (.user id) := by
  have hbuiltin : name.builtin? = none :=
    ((meaning?_eq_some_iff.1 h).resolve_left (builtin?_ne_imported name name)).1
  have hmem : name ∈ (r.run events).names := mem_names_run_iff.2 (Or.inr (Or.inr hdefined))
  obtain ⟨id, hid⟩ := Option.ne_none_iff_exists'.1 (mt idOf?_eq_none_iff.1 (not_not.2 hmem))
  exact ⟨id, hid, meaning?_eq_some_iff.2 (Or.inr ⟨hbuiltin, Or.inl ⟨id, hid, rfl⟩⟩)⟩

/-- Whatever is done in between, two references to one name come to the same type, layer by layer, but
for one case: the name is imported at the first, and a definition of it is accepted in between. Then
the second comes to the record of the definition. -/
theorem resolve_again (r : Registry) (between : List Event) (origin origin' : Span) (name : QualifiedName) :
    let first := r.resolve origin name
    let second := (first.2.run between).resolve origin' name
    (second.1 = first.1 ↔ ¬ (first.1 = TypeRef.array^[name.arrayLayers] (.imported name.element) ∧
      name.element ∈ first.2.definedIn between)) ∧
    (second.1 ≠ first.1 → ∃ id, (first.2.run between).idOf? name.element = some id ∧
      second.1 = TypeRef.array^[name.arrayLayers] (.user id)) := by
  intro first second
  have hlayers : Function.Injective TypeRef.array^[name.arrayLayers] :=
    Function.Injective.iterate (fun _ _ => TypeRef.array.inj) _
  obtain ⟨t, hfirst, hmeaning⟩ := exists_meaning_of_resolve r origin name
  change first.1 = _ at hfirst
  rw [hfirst, hlayers.eq_iff]
  by_cases hchanged : t = .imported name.element ∧ name.element ∈ first.2.definedIn between
  · obtain ⟨rfl, hdefined⟩ := hchanged
    obtain ⟨id, hid, hlater⟩ := meaning?_run_of_defined hmeaning hdefined
    have hsecond : second.1 = TypeRef.array^[name.arrayLayers] (.user id) :=
      congrArg Prod.fst (resolve_eq_of_known hlater)
    refine ⟨⟨fun hsame => ?_, fun h => absurd ⟨rfl, hdefined⟩ h⟩, fun _ => ⟨id, hid, hsecond⟩⟩
    cases hlayers (hsecond.symm.trans hsame)
  · have hsecond : second.1 = TypeRef.array^[name.arrayLayers] t :=
      congrArg Prod.fst (resolve_eq_of_known (meaning?_run hmeaning hchanged))
    exact ⟨⟨fun _ => hchanged, fun _ => hsecond⟩, fun hne => absurd hsecond hne⟩

/-- A name that is imported, referred to and then defined comes to two types in one run. -/
theorem resolve_imported_then_defined :
    let money := QualifiedName.ofParts "ref" "Money"
    let r := ({} : Registry).run [.addImport money]
    let first := r.resolve .unknown money
    let second := (first.2.run [.register money (.object { fields := [] })]).resolve .unknown money
    r.Reachable ∧ first.1 = .imported money ∧ second.1 = .user ⟨0⟩ ∧ second.1 ≠ first.1 := by
  intro money r first second
  exact ⟨⟨_, rfl⟩, by decide, by decide, by decide⟩

/-! ## What is reported -/

/-- From an empty registry, a name that is never defined gets its record from the first operation that
looks it up, unless that comes after an import. -/
theorem mem_allocatedIn_empty_iff (hundefined : name ∉ definedIn {} events) :
    name ∈ (allocatedIn {} events).map Placeholder.name ↔
      name.builtin? = none ∧ ∃ earlier e later, events = earlier ++ e :: later ∧ .addImport name ∉ earlier ∧
        (run {} earlier).RefersTo e name := by
  have himported : ∀ earlier : List Event,
      (run {} earlier).isImported name = false ↔ .addImport name ∉ earlier := by
    intro earlier
    rw [← Bool.not_eq_true, isImported_run]
    exact not_congr ⟨fun h => h.resolve_left nofun, Or.inr⟩
  constructor
  · intro h
    obtain ⟨earlier, e, later, hsplit, hrefers, hmeaning⟩ := mem_allocatedIn_iff.1 h
    obtain ⟨hbuiltin, -, hfree⟩ := meaning?_eq_none_iff.1 hmeaning
    exact ⟨hbuiltin, earlier, e, later, hsplit, (himported earlier).1 hfree, hrefers⟩
  · rintro ⟨hbuiltin, earlier, e, later, rfl, hfree, hrefers⟩
    by_cases hmem : name ∈ (run {} earlier).names
    · -- Some operation before has recorded the name, and it was no definition.
      rw [definedIn_append, List.mem_append] at hundefined
      rw [allocatedIn_append, List.map_append, List.mem_append]
      rcases mem_names_run_iff.1 hmem with hold | hallocated | hdefined
      · cases hold
      · exact Or.inl hallocated
      · exact absurd (Or.inl hdefined) hundefined
    · have hmeaning := meaning?_eq_none_iff.2 ⟨hbuiltin, hmem, (himported earlier).2 hfree⟩
      exact mem_allocatedIn_iff.2 ⟨earlier, e, later, rfl, hrefers, hmeaning⟩

/-- At the end of a run those names are reported, each once, that no definition was accepted for, that
are no built-ins, and that some operation looked up before they were imported, if they were. What comes
after the import plays no part, but what came before is not taken back. -/
theorem unresolved_names_iff (events : List Event) (name : QualifiedName) :
    let r := run {} events
    r.unresolved = r.placeholders.map Placeholder.report ∧
    (r.placeholders.map Placeholder.name).Nodup ∧
    (name ∈ r.placeholders.map Placeholder.name ↔
      name ∉ definedIn {} events ∧ name.builtin? = none ∧
        ∃ earlier e later, events = earlier ++ e :: later ∧ .addImport name ∉ earlier ∧
          (run {} earlier).RefersTo e name) := by
  intro r
  have hplaceholders : r.placeholders = (allocatedIn {} events).filter (·.name ∉ definedIn {} events) :=
    placeholders_run namesDistinct_empty events
  have hnodup : ((allocatedIn {} events).map Placeholder.name).Nodup := nodup_allocatedIn namesDistinct_empty events
  refine ⟨unresolved_eq_map_placeholders r, ?_, ?_⟩
  · rw [hplaceholders]
    exact hnodup.sublist (List.filter_sublist.map _)
  · have hleft : name ∈ r.placeholders.map Placeholder.name ↔
        name ∉ definedIn {} events ∧ name ∈ (allocatedIn {} events).map Placeholder.name := by
      rw [hplaceholders, List.mem_map, List.mem_map]
      simp only [List.mem_filter, decide_eq_true_eq]
      constructor
      · rintro ⟨p, ⟨hp, hdefined⟩, rfl⟩
        exact ⟨hdefined, p, hp, rfl⟩
      · rintro ⟨hdefined, p, hp, rfl⟩
        exact ⟨p, ⟨hp, hdefined⟩, rfl⟩
    rw [hleft]
    exact and_congr_right mem_allocatedIn_empty_iff

/-- A type that is referred to and then imported is reported as undefined. -/
theorem unresolved_reference_before_import :
    let money := QualifiedName.ofParts "ref" "Money"
    let events : List Event := [.resolve .unknown money, .addImport money]
    let r := run {} events
    .addImport money ∈ events ∧ (∀ d, .register money d ∉ events) ∧ (∀ e, .extend money e ∉ events) ∧
      r.unresolved = [Placeholder.report ⟨money, .unknown⟩] := by
  intro money events r
  refine ⟨by simp [events], by simp [events], by simp [events], rfl⟩

end Registry

end SemanticSchema
