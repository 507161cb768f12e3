import SemanticSchema.Document
import SemanticSchema.Proofs.Registry.Lineage
import SemanticSchema.Proofs.Registry.Run

/-!
# Looking types up by name

A document answers for a name in many ways, and each way finds the record of the name for itself. All of them
agree with the list of types: a name that one entry of it has is answered for that entry, and any other name is
not found. A record that is not defined is not listed, and no way finds it.

* `Document.refusal?` : why no type of some name and kind is given, if none is;
* `Document.lookup_of_listed`, `Document.lookup_of_not_listed` : the record of a name, read off the list of types;
* `Document.Answers`, `Document.Lacks` : the answers for a name that an entry has, and for a name that none has;
* `Document.lookups_consistent` : one of the two is the case, as the list says.
-/

set_option autoImplicit false

namespace SemanticSchema

/-- Why there is no answer. -/
def DocumentError.of? {α : Type} : Except DocumentError α → Option DocumentError
  | .ok _ => none
  | .error e => some e

namespace Document

variable {d : Document} {name : QualifiedName} {id : TypeId} {body : TypeBody} {x : Record}

/-- Why no type of some name and kind is given. -/
def refusal? (d : Document) (name : QualifiedName) : TypeKind → Option DocumentError
  | .object => DocumentError.of? (d.object name)
  | .enum => DocumentError.of? (d.enum name)
  | .typeAlias => DocumentError.of? (d.typeAlias name)
  | .annotationType => DocumentError.of? (d.annotationType name)

/-- The entries of the list of types that have some name. -/
def entries (d : Document) (name : QualifiedName) : List Record := d.types.filter (·.name == name)

/-- What a document answers for a name that the entry `x` has. -/
structure Answers (d : Document) (name : QualifiedName) (x : Record) : Prop where
  kinds : ∀ kind, d.refusal? name kind = if kind = x.body.kind then none else some (.wrongKind name kind x.body.kind)
  object : ∀ t, d.object name = .ok t ↔ x.body = .object t
  enum : ∀ t, d.enum name = .ok t ↔ x.body = .enum t
  typeAlias : ∀ t, d.typeAlias name = .ok t ↔ x.body = .typeAlias t
  annotationType : ∀ t, d.annotationType name = .ok t ↔ x.body = .annotationType t
  typeRef : ∃ id, d.typeRef name = .ok (.user id) ∧ d.nameOf (.user id) = name ∧ d.registry.get? id = some x ∧
    ∀ id' y, d.registry.get? id' = some y → d.nameOf (.user id') = name → id' = id
  allFields : DocumentError.of? (d.allFields name) = d.refusal? name .object
  field_refused : ∀ e, d.refusal? name .object = some e → ∀ field, d.field name field = .error e
  field : ∀ fields, d.allFields name = .ok fields → ∀ field,
    ((∃ f, d.field name field = .ok f) ↔ ∃ f ∈ fields, f.name = field) ∧
    ((¬ ∃ f ∈ fields, f.name = field) → d.field name field = .error (.noSuchField name field))

/-- What a document answers for a name that no entry has. -/
structure Lacks (d : Document) (name : QualifiedName) : Prop where
  kinds : ∀ kind, d.refusal? name kind = some (.notFound name)
  typeRef : d.typeRef name = .error (.notFound name)
  allFields : d.allFields name = .error (.notFound name)
  field : ∀ field, d.field name field = .error (.notFound name)

/-! ## The record of a name -/

theorem lookup_of_idOf? (hid : d.registry.idOf? name = some id) (hx : d.registry.get? id = some x) :
    d.lookup name = if x.isDefined then .ok (id, x.body) else .error (.notFound name) := by
  simp only [lookup, hid, hx]

theorem mem_entries_iff :
    x ∈ d.entries name ↔ ∃ id, d.registry.get? id = some x ∧ x.isDefined = true ∧ x.name = name := by
  simp [entries, types, Registry.mem_definedSlots, and_assoc]

theorem length_entries_le (hnames : d.registry.NamesDistinct) (name : QualifiedName) :
    (d.entries name).length ≤ 1 := by
  have hcount := hnames.count_definedSlots name
  have hlength : (d.entries name).length = (d.registry.definedSlots.map fun slot => slot.2.name).count name := by
    rw [entries, types, ← List.countP_eq_length_filter, List.countP_map, List.count, List.countP_map]
    rfl
  rw [hlength, hcount]
  split
  · exact Nat.le_refl 1
  · exact Nat.zero_le 1

theorem lookup_of_listed (hnames : d.registry.NamesDistinct) (h : x ∈ d.entries name) :
    ∃ id, d.registry.get? id = some x ∧ x.name = name ∧ d.lookup name = .ok (id, x.body) := by
  obtain ⟨id, hx, hdefined, rfl⟩ := mem_entries_iff.1 h
  exact ⟨id, hx, rfl, by rw [lookup_of_idOf? (hnames.idOf?_name hx) hx, if_pos hdefined]⟩

theorem lookup_of_not_listed (h : d.entries name = []) : d.lookup name = .error (.notFound name) := by
  cases hid : d.registry.idOf? name with
  | none => simp only [lookup, hid]
  | some id =>
    obtain ⟨x, hx, hname⟩ := Registry.exists_of_idOf? hid
    -- The name has a record, but it waits for its definition: a defined one would be listed.
    have hundefined : ¬ x.isDefined = true := by
      intro hdefined
      have hmem : x ∈ d.entries name := mem_entries_iff.2 ⟨id, hx, hdefined, hname⟩
      rw [h] at hmem
      cases hmem
    rw [lookup_of_idOf? hid hx, if_neg hundefined]

/-! ## Answers -/

theorem refusal?_of_lookup (h : d.lookup name = .ok (id, body)) (kind : TypeKind) :
    d.refusal? name kind = if kind = body.kind then none else some (.wrongKind name kind body.kind) := by
  cases body <;> cases kind <;>
    simp [refusal?, object, objectSlot, enum, enumSlot, typeAlias, annotationType, h, DocumentError.of?, TypeBody.kind,
      Except.map]

theorem refusal?_of_error {e : DocumentError} (h : d.lookup name = .error e) (kind : TypeKind) :
    d.refusal? name kind = some e := by
  cases kind <;>
    simp [refusal?, object, objectSlot, enum, enumSlot, typeAlias, annotationType, h, DocumentError.of?, Except.map]

theorem of?_allFields (d : Document) (name : QualifiedName) :
    DocumentError.of? (d.allFields name) = d.refusal? name .object := by
  rw [refusal?, allFields, object]
  cases d.objectSlot name <;> rfl

theorem field_of_refusal? {e : DocumentError} (h : d.refusal? name .object = some e) (field : String) :
    d.field name field = .error e := by
  rw [refusal?, object] at h
  rw [Document.field]
  cases hslot : d.objectSlot name with
  | ok found => rw [hslot] at h; cases h
  | error e' => rw [hslot] at h; cases h; rfl

/-- A field is given just if it is among all fields. -/
theorem field_eq_find? {fields : List Field} (h : d.allFields name = .ok fields) (field : String) :
    d.field name field = match fields.find? (·.name == field) with
      | some f => .ok f
      | none => .error (.noSuchField name field) := by
  rw [allFields] at h
  rw [Document.field]
  cases hslot : d.objectSlot name with
  | ok found => rw [hslot] at h; cases h; rfl
  | error e => rw [hslot] at h; cases h

theorem exists_field_iff {fields : List Field} (h : d.allFields name = .ok fields) (field : String) :
    (∃ f, d.field name field = .ok f) ↔ ∃ f ∈ fields, f.name = field := by
  rw [field_eq_find? h]
  cases hfind : fields.find? (·.name == field) with
  | some f =>
    have hf : f.name = field := by simpa using List.find?_some hfind
    exact ⟨fun _ => ⟨f, List.mem_of_find?_eq_some hfind, hf⟩, fun _ => ⟨f, rfl⟩⟩
  | none =>
    have hnone : ∀ f ∈ fields, f.name ≠ field := by simpa using hfind
    constructor
    · rintro ⟨f, hf⟩
      cases hf
    · rintro ⟨f, hf, hname⟩
      exact absurd hname (hnone f hf)

theorem field_of_missing {fields : List Field} (h : d.allFields name = .ok fields) {field : String}
    (hmissing : ¬ ∃ f ∈ fields, f.name = field) : d.field name field = .error (.noSuchField name field) := by
  have hfind : fields.find? (·.name == field) = none := by
    rw [List.find?_eq_none]
    exact fun f hf hname => hmissing ⟨f, hf, by simpa using hname⟩
  rw [field_eq_find? h, hfind]

theorem answers_of_listed (hnames : d.registry.NamesDistinct) (h : x ∈ d.entries name) : d.Answers name x := by
  obtain ⟨id, hx, hname, hlookup⟩ := lookup_of_listed hnames h
  have hid := hname ▸ hnames.idOf?_name hx
  refine
    { kinds := refusal?_of_lookup hlookup
      object := fun t => ?_
      enum := fun t => ?_
      typeAlias := fun t => ?_
      annotationType := fun t => ?_
      typeRef := ⟨id, by rw [Document.typeRef, hlookup]; rfl, (Registry.nameOf_user hx).trans hname, hx, ?_⟩
      allFields := of?_allFields d name
      field_refused := fun e he field => field_of_refusal? he field
      field := fun fields hfields field => ⟨exists_field_iff hfields field, field_of_missing hfields⟩ }
  · cases hbody : x.body <;> simp [Document.object, objectSlot, hlookup, hbody, Except.map]
  · cases hbody : x.body <;> simp [Document.enum, enumSlot, hlookup, hbody, Except.map]
  · cases hbody : x.body <;> simp [Document.typeAlias, hlookup, hbody]
  · cases hbody : x.body <;> simp [Document.annotationType, hlookup, hbody]
  · intro id' y hy hname'
    have hid' := hnames.idOf?_name hy
    rw [(Registry.nameOf_user hy).symm.trans hname', hid] at hid'
    exact (Option.some.inj hid').symm

theorem lacks_of_not_listed (h : d.entries name = []) : d.Lacks name := by
  have hlookup := lookup_of_not_listed h
  have hkinds := refusal?_of_error hlookup
  exact
    { kinds := hkinds
      typeRef := by rw [Document.typeRef, hlookup]; rfl
      allFields := by rw [Document.allFields, objectSlot, hlookup]; rfl
      field := field_of_refusal? (hkinds .object) }

/-- A name is contained in a document just if the list of types has one entry of that name; otherwise the list
has none. In the first case one of the four kinds is the kind of that entry, and every answer is about that entry:
its type for that kind and a refusal for any other, a reference to its record, which no other record's name is,
and its fields if it is an object type. In the second case nothing is found. -/
theorem lookups_consistent (hd : d.registry.Reachable) (name : QualifiedName) :
    (d.containsType name = true ↔ (d.entries name).length = 1) ∧
    (d.containsType name = false ↔ d.entries name = []) ∧
    (d.containsType name = true → ∃ x, d.entries name = [x] ∧ d.Answers name x) ∧
    (d.containsType name = false → d.Lacks name) := by
  have hnames := hd.namesDistinct
  -- No two records of a reachable registry have one name, so that the list has at most one entry of it.
  have hlength := length_entries_le hnames name
  cases hentries : d.entries name with
  | nil =>
    have hcontains : d.containsType name = false := by rw [containsType, lookup_of_not_listed hentries]; rfl
    simp [hcontains, lacks_of_not_listed hentries]
  | cons x rest =>
    have hrest : rest = [] := by
      rw [hentries, List.length_cons] at hlength
      exact List.length_eq_zero_iff.1 (by omega)
    have hmem : x ∈ d.entries name := hentries ▸ List.mem_cons_self
    obtain ⟨id, -, -, hlookup⟩ := lookup_of_listed hnames hmem
    have hcontains : d.containsType name = true := by rw [containsType, hlookup]; rfl
    simp [hcontains, hrest, answers_of_listed hnames hmem]

/-- A price inherits its only field from the money type. A note is referred to and never defined. -/
theorem lookups_consistent_price :
    let note := QualifiedName.ofParts "pay" "Note"
    let price := QualifiedName.ofParts "pay" "Price"
    let events : List Registry.Event := [
      .resolve .unknown note,
      .register (.ofParts "pay" "Money") (.object { fields := [{ name := "amount", type := .primitive .decimal }] }),
      .register price (.object { fields := [], inherits := [.user ⟨1⟩] })]
    let d : Document := ⟨Registry.run {} events, []⟩
    d.registry.Reachable ∧
      d.containsType price = true ∧ d.refusal? price .enum = some (.wrongKind price .enum .object) ∧
      (∃ f, d.field price "amount" = .ok f) ∧ d.field price "note" = .error (.noSuchField price "note") ∧
      d.containsType note = false ∧ d.typeRef note = .error (.notFound note) := by
  intro note price events d
  have hd : d.registry.Reachable := ⟨events, rfl⟩
  have hprice : d.containsType price = true := by decide +kernel
  have hnote : d.containsType note = false := by decide +kernel
  obtain ⟨-, -, hfound, -⟩ := lookups_consistent hd price
  obtain ⟨-, -, -, hlacks⟩ := lookups_consistent hd note
  obtain ⟨x, hx, hanswers⟩ := hfound hprice
  have hkind : x.body.kind = .object := by
    have hkinds : (d.entries price).map (·.body.kind) = [.object] := by decide +kernel
    rw [hx] at hkinds
    exact (List.cons.inj hkinds).1
  have hrefusals := hanswers.kinds
  rw [hkind] at hrefusals
  obtain ⟨fields, hfields, hnames⟩ : ∃ fields, d.allFields price = .ok fields ∧ fields.map (·.name) = ["amount"] := by
    have hnames : (d.allFields price).toOption.map (·.map (·.name)) = some ["amount"] := by decide +kernel
    cases hfields : d.allFields price with
    | ok fields => exact ⟨fields, rfl, by simpa [hfields, Except.toOption] using hnames⟩
    | error e => simp [hfields, Except.toOption] at hnames
  have hmem (field : String) : (∃ f ∈ fields, f.name = field) ↔ field = "amount" := by
    rw [← List.mem_map, hnames, List.mem_singleton]
  exact ⟨hd, hprice, hrefusals .enum, (hanswers.field fields hfields "amount").1.2 ((hmem _).2 rfl),
    (hanswers.field fields hfields "note").2 (by simp [hmem]), hnote, (hlacks hnote).typeRef⟩

end Document

end SemanticSchema
