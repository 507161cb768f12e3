import SemanticSchema.Proofs.Builder.Finish
import SemanticSchema.Proofs.Builder.Run
import SemanticSchema.Proofs.Constraint.Offers
import SemanticSchema.Proofs.Registry.EnumRoots

/-!
# What a document promises

A reader of a finished schema need not look at the reports on it: that there is a document is enough
to know that its types are defined, its enums have one base, and its constraints are well formed.

* `Document.Constrains` : the places of a document where constraints stand;
* `Document.Sound` : what is promised;
* `Registry.severalBasesReport_mem` : an enum with several roots is reported;
* `Builder.finish_sound` : the document of every builder that a run leads to is sound.
-/

set_option autoImplicit false

namespace SemanticSchema

/-- The places of a document where constraints stand: the fields of its object types, inherited ones
included, the parameters of its operations, and what these promise of their results. -/
inductive Document.Constrains (d : Document) : ConstraintSite → ConstraintTarget → Prop
  | field {id : TypeId} {f : Field} (hf : f ∈ d.registry.allFields id) : Constrains d (.field id) (.field f)
  | parameter {s : Service} {o : Operation} {p : Parameter} (hs : s ∈ d.services) (ho : o ∈ s.operations)
    (hp : p ∈ o.params) : Constrains d (.parameter o) (.parameter p)
  | contract {s : Service} {o : Operation} {c : Contract} (hs : s ∈ d.services) (ho : o ∈ s.operations)
    (hc : o.contract = some c) : Constrains d (.returnContract o) (.contract c)

/-- What a document promises. -/
structure Document.Sound (d : Document) : Prop where
  defined : ∀ id x, d.registry.get? id = some x → x.isDefined = true
  base : ∀ id x t, d.registry.get? id = some x → x.body = .enum t → ∃ base, d.baseEnum x.name = .ok base
  constraints : ∀ site target, d.Constrains site target → ∀ c ∈ target.constraints,
    d.registry.WellFormed site target.type c

namespace Registry

variable {r : Registry} {id : TypeId} {x : Record}

theorem isDefined_of_unresolved (h : r.unresolved = []) (hx : r.get? id = some x) : x.isDefined = true := by
  unfold unresolved at h
  rw [List.map_eq_nil_iff, List.filter_eq_nil_iff] at h
  have hx' := h x (List.mem_of_getElem? hx)
  cases hdefined : x.isDefined with
  | true => rfl
  | false => exact absurd (by rw [hdefined]; rfl) hx'

theorem severalBasesReport_mem {p : Policy} {t : EnumType} (hx : r.get? id = some x)
    (hdefined : x.isDefined = true) (hbody : x.body = .enum t) (hroots : 1 < (r.enumRoots id).length) :
    ∃ span, r.severalBasesReport x.name span (r.enumRoots id) ∈ r.inheritanceReports p := by
  have hinherits : Inherits x := Or.inr (by rw [hbody]; rfl)
  have hmem : r.severalBasesReport x.name x.declaredAt (r.enumRoots id) ∈ r.inheritanceReportsOn p id x :=
    mem_inheritanceReportsOn_iff.2 ⟨hinherits, Or.inr (Or.inl ⟨hroots, rfl⟩)⟩
  exact ⟨x.declaredAt, List.mem_flatMap.2 ⟨(id, x), mem_definedSlots.2 ⟨hx, hdefined⟩, hmem⟩⟩

/-! ## Constraints -/

theorem severity_of_mem_constraintReportsOn {site : ConstraintSite} {target : ConstraintTarget} {c : Constraint}
    {d : Diagnostic} (h : d ∈ r.constraintReportsOn .standard site target c) : d.severity = .error := by
  rw [constraintReportsOn_standard] at h
  obtain ⟨reason, -, rfl⟩ := List.mem_map.1 h
  rfl

end Registry

namespace Document

variable {d : Document}

/-- What the standard validators have to say about any constraint is among the reports. An inherited
field is reported on where it is declared, in the same words. -/
theorem constraintReportsOn_subset {site : ConstraintSite} {target : ConstraintTarget} {c : Constraint}
    (hplace : d.Constrains site target) (hc : c ∈ target.constraints) :
    d.registry.constraintReportsOn .standard site target c ⊆
      d.registry.constraintReports .standard d.services := by
  have hdeclared : ∃ place, d.Declares place target ∧
      d.registry.constraintReportsOn .standard site target c =
        d.registry.constraintReportsOn .standard place target c := by
    cases hplace with
    | @field id f hf =>
      obtain ⟨owner, -, hown⟩ := Registry.mem_allFields_iff.1 hf
      exact ⟨_, .field hown, Registry.constraintReportsOn_field _ id owner _ c⟩
    | parameter hs ho hp => exact ⟨_, .parameter hs ho hp, rfl⟩
    | contract hs ho hcontract => exact ⟨_, .contract hs ho hcontract, rfl⟩
  obtain ⟨place, hdeclares, hsame⟩ := hdeclared
  rw [hsame, constraintReports_eq]
  exact fun report hreport => List.mem_flatMap.2 ⟨⟨place, target, c⟩, mem_offers_iff.2 ⟨hdeclares, hc⟩, hreport⟩

/-- When names are distinct, an enum with at most one root is found by its name, and so is its base. -/
theorem exists_baseEnum {id : TypeId} {x : Record} {t : EnumType} (hnames : d.registry.NamesDistinct)
    (hx : d.registry.get? id = some x) (hdefined : x.isDefined = true) (hbody : x.body = .enum t)
    (hroots : (d.registry.enumRoots id).length ≤ 1) : ∃ base, d.baseEnum x.name = .ok base := by
  have hid := hnames.idOf?_name hx
  have henum : d.registry.enum? id = some t := by
    obtain ⟨body, origin⟩ := x
    cases hbody
    exact Registry.enum?_eq_some_iff.2 ⟨origin, hx⟩
  have hslot : d.enumSlot x.name = .ok (id, t) := by
    simp only [enumSlot, lookup, hid, hx, hdefined, if_true, hbody]
  obtain ⟨base, hbase⟩ := Registry.exists_baseEnum (Registry.isEnum_iff.2 ⟨t, henum⟩) hroots
  refine ⟨base, ?_⟩
  simp only [baseEnum, hslot, Except.bind, hbase]

end Document

/-- A document is sound. However a builder with the standard providers was brought about, if it
finishes with a document then every record of it is defined, every enum of it has a base, and every
constraint on a field, a parameter or a result in it is well formed. -/
theorem Builder.finish_sound {b : Builder} {s : FinishedSchema} (hb : b.Reachable) (h : b.finish = .ok s) :
    s.document.Sound := by
  have hregistry : s.document.registry = b.applyExtensions.registry := by rw [(finish_eq_ok_iff.1 h).2]
  have hreports := modelReports_of_finish h
  rw [hb.providers] at hreports
  have hdefined : ∀ id x, s.document.registry.get? id = some x → x.isDefined = true := by
    rw [hregistry]
    exact fun id x => Registry.isDefined_of_unresolved (unresolved_of_finish h)
  have hnames : s.document.registry.NamesDistinct := by
    have hreachable : b.applyExtensions.registry.Reachable := hb.registry.trans b.reaches_applyExtensions
    rw [hregistry]
    exact hreachable.namesDistinct
  refine ⟨hdefined, ?_, ?_⟩
  · intro id x t hx hbody
    have hroots : (s.document.registry.enumRoots id).length ≤ 1 := by
      by_contra hmany
      obtain ⟨span, hmem⟩ :=
        Registry.severalBasesReport_mem hx (hdefined id x hx) hbody (Nat.lt_of_not_le hmany)
      exact hreports _ (List.mem_append_right _ hmem) rfl
    exact Document.exists_baseEnum hnames hx (hdefined id x hx) hbody hroots
  · intro site target hplace c hc
    have hnone : s.document.registry.constraintReportsOn .standard site target c = [] := by
      refine List.eq_nil_iff_forall_not_mem.2 ?_
      intro report hreport
      have hmem := Document.constraintReportsOn_subset hplace hc hreport
      have herror := Registry.severity_of_mem_constraintReportsOn hreport
      exact hreports _ (List.mem_append_left _ hmem) herror
    exact Registry.wellFormed_of_constraintReportsOn hnone

/-- An operation whose result has the currency of its parameter, declared before the types. -/
theorem Builder.finish_sound_exchange :
    let money := QualifiedName.ofParts "pay" "Money"
    let currency := QualifiedName.ofParts "pay" "Currency"
    let sameCurrency := Clause.comparison (.thisPath ⟨["this", "currency"]⟩) .equal
      (.relative ⟨["source", "currency"]⟩) .unknown
    let convert : OperationDeclaration := {
      name := "convert", params := [{ name := some "source", type := .user ⟨0⟩ }]
      returns := .user ⟨0⟩, contract := [sameCurrency] }
    let events : List Builder.Event := [
      .resolveType money .unknown,
      .resolveType currency .unknown,
      .declareService { name := .ofParts "pay" "Exchange", operations := [convert] },
      .type (.declare (.object { name := money, fields := [{ name := "currency", type := .user ⟨1⟩ }] })),
      .type (.declare (.enum { name := currency, members := [{ name := "EUR" }, { name := "USD" }] }))]
    ∃ s, (Builder.run {} events).finish = .ok s ∧ s.document.Sound := by
  intro money currency sameCurrency convert events
  have hok : (Builder.run {} events).finish.isOk = true := by decide +kernel
  cases h : (Builder.run {} events).finish with
  | ok s => exact ⟨s, rfl, finish_sound ⟨{}, events, rfl⟩ h⟩
  | error reports => rw [h] at hok; cases hok

end SemanticSchema
