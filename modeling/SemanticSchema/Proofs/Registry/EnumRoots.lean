import Mathlib.Data.Set.Finite.List
import Mathlib.Order.WellFounded
import SemanticSchema.EnumBase
import SemanticSchema.Proofs.Registry.Ends
import SemanticSchema.Proofs.Registry.InheritanceReports
import SemanticSchema.Proofs.Registry.Lineage

/-!
# Roots of enums

The enums at and above an enum that name no enum as a supertype, and the base that an enum has if there is
only one of them.

* `Registry.NamesEnum`, `Registry.ReachesEnum` : a type names an enum as a supertype, aliases left aside; an
  enum lies above a type at any height;
* `Registry.enumRoots_eq` : the roots are the enums of the lineage that name no enum;
* `Registry.enumRoots_of_root` : a single root is its own single root;
* `Registry.enumRoots_ne_nil` : above an enum that leads to no cycle there is a root;
* `Registry.baseEnum_fixed` : the base of an enum is its own base, and has its members;
* `Registry.enumRoots_exact` : when the roots are the enums above which there is no enum at all;
* `Registry.currencies` : enums that inherit from another by aliases, and one that does so by an object type.
-/

set_option autoImplicit false

namespace SemanticSchema.Registry

open Relation

variable {r : Registry} {id root b : TypeId}

theorem isEnum_iff : r.isEnum id = true ↔ ∃ t, r.enum? id = some t := Option.isSome_iff_exists

theorem enum?_eq_some_iff {t : EnumType} : r.enum? id = some t ↔ ∃ origin, r.get? id = some ⟨.enum t, origin⟩ := by
  unfold enum?
  constructor
  · intro h
    split at h
    · next hget => exact ⟨_, Option.some.inj h ▸ hget⟩
    · cases h
  · rintro ⟨origin, hget⟩
    rw [hget]

theorem aliasTarget?_of_isEnum (h : r.isEnum id = true) : r.aliasTarget? (.user id) = none := by
  obtain ⟨t, ht⟩ := isEnum_iff.1 h
  obtain ⟨origin, hget⟩ := enum?_eq_some_iff.1 ht
  simp [aliasTarget?, typeAlias?, hget]

/-! ## Enums above a type -/

/-- Whether a type names an enum, or an alias of one, as a supertype. -/
def NamesEnum (r : Registry) (id : TypeId) : Prop :=
  ∃ s e, r.SupertypeStep (.user id) s ∧ ReflTransGen r.AliasStep s (.user e) ∧ r.isEnum e = true

theorem inheritsEnum_iff : r.inheritsEnum id = true ↔ r.NamesEnum id := by
  unfold inheritsEnum
  rw [List.any_eq_true]
  constructor
  · rintro ⟨s, hs, hany⟩
    obtain ⟨e, he, henum⟩ := (Option.any_eq_true _ _).1 hany
    have hsteps : ReflTransGen r.AliasStep s (r.underlying s) := aliases_followAliases r [] s
    rw [TypeRef.userId?_eq_some_iff.1 he] at hsteps
    exact ⟨s, e, hs, hsteps, henum⟩
  · rintro ⟨s, e, hs, hsteps, henum⟩
    have hend : r.underlying s = .user e := underlying_of_ends hsteps (aliasTarget?_of_isEnum henum)
    exact ⟨s, hs, by rw [hend]; exact henum⟩

instance (r : Registry) (id : TypeId) : Decidable (NamesEnum r id) := decidable_of_iff _ inheritsEnum_iff

/-- Whether an enum lies above a type, the type itself if the steps lead back to it. -/
def ReachesEnum (r : Registry) (id : TypeId) : Prop :=
  ∃ e, r.isEnum e = true ∧ TransGen r.SupertypeStep (.user id) (.user e)

theorem reachesEnum_iff : r.ReachesEnum id ↔
    (r.isEnum id = true ∧ r.isCyclic (.user id) = true) ∨
      ∃ e ∈ (r.supertypes (.user id)).filterMap (·.userId?), r.isEnum e = true := by
  constructor
  · rintro ⟨e, henum, hsteps⟩
    by_cases he : e = id
    · rw [he] at henum hsteps
      exact Or.inl ⟨henum, isCyclic_iff.2 hsteps⟩
    · exact Or.inr ⟨e, mem_userSupertypes_iff.2 ⟨he, hsteps⟩, henum⟩
  · rintro (⟨henum, hcyclic⟩ | ⟨e, he, henum⟩)
    · exact ⟨id, henum, isCyclic_iff.1 hcyclic⟩
    · exact ⟨e, henum, (mem_userSupertypes_iff.1 he).2⟩

instance (r : Registry) (id : TypeId) : Decidable (ReachesEnum r id) := decidable_of_iff _ reachesEnum_iff.symm

theorem supertypeSteps_of_aliasSteps {t u : TypeRef} (h : ReflTransGen r.AliasStep t u) :
    ReflTransGen r.SupertypeStep t u :=
  ReflTransGen.mono (fun _ _ => AliasStep.supertypeStep) t u h

theorem NamesEnum.reachesEnum (h : r.NamesEnum id) : r.ReachesEnum id := by
  obtain ⟨s, e, hs, hsteps, henum⟩ := h
  exact ⟨e, henum, .head' hs (supertypeSteps_of_aliasSteps hsteps)⟩

/-! ## Roots -/

theorem enumRoots_eq (henum : r.isEnum id = true) :
    r.enumRoots id = (r.lineage id).filter fun x => r.isEnum x = true ∧ ¬ r.NamesEnum x := by
  rw [enumRoots, if_pos henum]
  refine List.filter_congr fun x _ => ?_
  rw [Bool.eq_iff_iff, Bool.and_eq_true, Bool.not_eq_true', decide_eq_true_iff, ← inheritsEnum_iff, Bool.not_eq_true]

theorem enumRoots_of_not_isEnum (henum : ¬ r.isEnum id = true) : r.enumRoots id = [] := if_neg henum

theorem mem_enumRoots_iff : root ∈ r.enumRoots id ↔
    r.isEnum id = true ∧ root ∈ r.lineage id ∧ r.isEnum root = true ∧ ¬ r.NamesEnum root := by
  by_cases henum : r.isEnum id = true
  · rw [enumRoots_eq henum, List.mem_filter, decide_eq_true_iff]
    exact (and_iff_right henum).symm
  · rw [enumRoots_of_not_isEnum henum]
    exact ⟨nofun, fun h => absurd h.1 henum⟩

theorem isEnum_of_mem_enumRoots (h : root ∈ r.enumRoots id) : r.isEnum root = true := (mem_enumRoots_iff.1 h).2.2.1

theorem nodup_enumRoots (r : Registry) (id : TypeId) : (r.enumRoots id).Nodup := by
  by_cases henum : r.isEnum id = true
  · rw [enumRoots_eq henum]
    exact (r.nodup_lineage id).filter _
  · rw [enumRoots_of_not_isEnum henum]
    exact List.nodup_nil

/-- The roots of an enum that lies at or above another are roots of the other. -/
theorem enumRoots_subset (henum : r.isEnum id = true) (h : b ∈ r.lineage id) : r.enumRoots b ⊆ r.enumRoots id := by
  intro root hroot
  obtain ⟨-, hmem, hkind⟩ := mem_enumRoots_iff.1 hroot
  have habove : r.isAssignable (.user id) (.user b) = true := isAssignable_iff.2 (mem_lineage_iff.1 h)
  exact mem_enumRoots_iff.2 ⟨henum, lineage_subset habove hmem, hkind⟩

theorem enumRoots_of_root (h : r.enumRoots id = [b]) : r.enumRoots b = [b] := by
  have hb : b ∈ r.enumRoots id := h ▸ List.mem_singleton_self b
  obtain ⟨henum, habove, hkind⟩ := mem_enumRoots_iff.1 hb
  have hsubset : r.enumRoots b ⊆ [b] := h ▸ enumRoots_subset henum habove
  have hself : b ∈ r.enumRoots b := mem_enumRoots_iff.2 ⟨hkind.1, List.mem_cons_self, hkind⟩
  have hperm : (r.enumRoots b).Perm [b] := (List.perm_ext_iff_of_nodup (r.nodup_enumRoots b) (List.nodup_singleton b)).2
    fun x => ⟨fun hx => hsubset hx, fun hx => List.mem_singleton.1 hx ▸ hself⟩
  exact List.perm_singleton.1 hperm

/-! ## Above an enum without cycles -/

theorem wellFounded_above (hacyclic : ∀ t, ReflTransGen r.SupertypeStep (.user id) t → ¬ TransGen r.SupertypeStep t t) :
    WellFounded fun y x : { i // i ∈ r.lineage id } => TransGen r.SupertypeStep (.user x.1) (.user y.1) := by
  have hfinite : Finite { i // i ∈ r.lineage id } := (List.finite_toSet (r.lineage id)).to_subtype
  have htrans : IsTrans { i // i ∈ r.lineage id } fun y x => TransGen r.SupertypeStep (.user x.1) (.user y.1) :=
    ⟨fun _ _ _ hzy hyx => hyx.trans hzy⟩
  have hirrefl : Std.Irrefl fun y x : { i // i ∈ r.lineage id } => TransGen r.SupertypeStep (.user x.1) (.user y.1) :=
    ⟨fun x hcycle => hacyclic _ (mem_lineage_iff.1 x.2) hcycle⟩
  exact Finite.wellFounded_of_trans_of_irrefl _

theorem enumRoots_ne_nil (henum : r.isEnum id = true)
    (hacyclic : ∀ t, ReflTransGen r.SupertypeStep (.user id) t → ¬ TransGen r.SupertypeStep t t) :
    r.enumRoots id ≠ [] := by
  -- Going up from enum to enum comes to an end, and the last of them is a root.
  have hroot : ∀ x : { i // i ∈ r.lineage id }, r.isEnum x.1 = true → ∃ root, root ∈ r.enumRoots id := by
    intro x
    induction x using (wellFounded_above hacyclic).induction with
    | _ x ih =>
      intro hx
      by_cases hnames : r.NamesEnum x.1
      · obtain ⟨e, he, hsteps⟩ := hnames.reachesEnum
        have hmem : e ∈ r.lineage id := mem_lineage_iff.2 ((mem_lineage_iff.1 x.2).trans hsteps.to_reflTransGen)
        exact ih ⟨e, hmem⟩ hsteps he
      · exact ⟨x.1, mem_enumRoots_iff.2 ⟨henum, x.2, hx, hnames⟩⟩
  obtain ⟨root, hmem⟩ := hroot ⟨id, List.mem_cons_self⟩ henum
  exact List.ne_nil_of_mem hmem

/-! ## The base -/

theorem baseEnum?_of_root (h : r.enumRoots id = [b]) : r.baseEnum? id = some b := by
  rw [baseEnum?, h]

theorem baseEnum?_eq_some_iff (henum : r.isEnum id = true) :
    r.baseEnum? id = some b ↔ r.enumRoots id = [b] ∨ r.enumRoots id = [] ∧ b = id := by
  unfold baseEnum?
  cases h : r.enumRoots id with
  | nil => simp [henum, eq_comm]
  | cons root roots => cases roots <;> simp

theorem baseEnum?_eq_none_iff (henum : r.isEnum id = true) :
    r.baseEnum? id = none ↔ 2 ≤ (r.enumRoots id).length := by
  unfold baseEnum?
  cases h : r.enumRoots id with
  | nil => simp [henum]
  | cons root roots => cases roots <;> simp

/-- An enum with at most one root has a base. -/
theorem exists_baseEnum (henum : r.isEnum id = true) (hroots : (r.enumRoots id).length ≤ 1) :
    ∃ t, (r.baseEnum? id).bind r.enum? = some t := by
  cases hbase : r.baseEnum? id with
  | none =>
    have hseveral := (baseEnum?_eq_none_iff henum).1 hbase
    omega
  | some b =>
    rcases (baseEnum?_eq_some_iff henum).1 hbase with hroot | ⟨-, rfl⟩
    · exact isEnum_iff.1 (isEnum_of_mem_enumRoots (hroot ▸ List.mem_singleton_self b))
    · exact isEnum_iff.1 henum

/-- The base of an enum is the enum itself or lies above it. It is its own base, and the enum has its members.
There is no base just when there are several roots. The roots are listed once each, and above an enum that
leads to no cycle there is one. -/
theorem baseEnum_fixed (r : Registry) {id : TypeId} (henum : r.isEnum id = true) :
    (∀ b, r.baseEnum? id = some b →
      (b = id ∨ .user b ∈ r.supertypes (.user id)) ∧ r.baseEnum? b = some b ∧
      ∃ t, r.enum? b = some t ∧ r.enumMembers id = t.members ∧ r.enumMembers b = t.members) ∧
    (r.baseEnum? id = none ↔ 2 ≤ (r.enumRoots id).length) ∧
    (r.enumRoots id).Nodup ∧
    ((∀ t, ReflTransGen r.SupertypeStep (.user id) t → ¬ TransGen r.SupertypeStep t t) → r.enumRoots id ≠ []) := by
  refine ⟨fun b hbase => ?_, baseEnum?_eq_none_iff henum, r.nodup_enumRoots id, enumRoots_ne_nil henum⟩
  have hplace : b ∈ r.lineage id ∧ r.isEnum b = true ∧ r.baseEnum? b = some b := by
    rcases (baseEnum?_eq_some_iff henum).1 hbase with hroot | ⟨hnone, rfl⟩
    · obtain ⟨-, habove, hkind, -⟩ := mem_enumRoots_iff.1 (hroot ▸ List.mem_singleton_self b)
      exact ⟨habove, hkind, baseEnum?_of_root (enumRoots_of_root hroot)⟩
    · exact ⟨List.mem_cons_self, henum, hbase⟩
  obtain ⟨habove, hkind, hfixed⟩ := hplace
  obtain ⟨t, ht⟩ := isEnum_iff.1 hkind
  have hmembers : ∀ i, r.baseEnum? i = some b → r.enumMembers i = t.members := by
    intro i hi
    rw [enumMembers, hi, Option.bind_some, ht]
  refine ⟨?_, hfixed, t, ht, hmembers id hbase, hmembers b hfixed⟩
  rcases List.mem_cons.1 habove with hself | habove
  · exact Or.inl hself
  · obtain ⟨u, hu, hid⟩ := List.mem_filterMap.1 habove
    rw [TypeRef.userId?_eq_some_iff.1 hid] at hu
    exact Or.inr hu

/-- Currencies, an alias of them, two enums that inherit from it one by way of the other, and a status that
inherits from them by way of an object type. -/
def currencies : Registry :=
  let named (name : String) (inherits : List TypeRef) (members : List EnumMember) : Record :=
    ⟨.enum (.defined (.ofParts "pay" name) { members := members, inherits := inherits }), .unknown⟩
  let pound : EnumMember := .ofName (.ofParts "pay" "Currency") "GBP" none
  { records := [
      named "Currency" [] [pound],
      ⟨.typeAlias (.defined (.ofParts "pay" "Money") { target := .user ⟨0⟩ }), .unknown⟩,
      named "Hard" [.user ⟨1⟩] [],
      named "Reserve" [.user ⟨2⟩] [],
      ⟨.object (.defined (.ofParts "pay" "Account") { fields := [], inherits := [.user ⟨0⟩] }), .unknown⟩,
      named "Status" [.user ⟨4⟩] []] }

/-- The reserve has the currencies as its base, and leads to no cycle. -/
theorem baseEnum_fixed_reserve :
    currencies.isEnum ⟨3⟩ = true ∧ currencies.baseEnum? ⟨3⟩ = some ⟨0⟩ ∧
      (∀ t, ReflTransGen currencies.SupertypeStep (.user ⟨3⟩) t → ¬ TransGen currencies.SupertypeStep t t) ∧
      currencies.baseEnum? ⟨0⟩ = some ⟨0⟩ ∧ (currencies.enumMembers ⟨3⟩).map (·.name) = ["GBP"] ∧
      currencies.enumRoots ⟨3⟩ ≠ [] := by
  have henum : currencies.isEnum ⟨3⟩ = true := by decide +kernel
  have hbase : currencies.baseEnum? ⟨3⟩ = some ⟨0⟩ := by decide +kernel
  have hacyclic : ∀ t, ReflTransGen currencies.SupertypeStep (.user ⟨3⟩) t → ¬ TransGen currencies.SupertypeStep t t := by
    intro t hsteps
    rw [← isCyclic_iff]
    have hall : ∀ u ∈ TypeRef.user ⟨3⟩ :: currencies.supertypes (.user ⟨3⟩), ¬ currencies.isCyclic u = true := by
      decide +kernel
    rcases mem_supertypes_of_steps hsteps with rfl | hmem
    · exact hall _ List.mem_cons_self
    · exact hall t (List.mem_cons_of_mem _ hmem)
  obtain ⟨hfixed, -, -, hroot⟩ := baseEnum_fixed currencies henum
  obtain ⟨-, hown, t, ht, hmembers, -⟩ := hfixed _ hbase
  refine ⟨henum, hbase, hacyclic, hown, ?_, hroot hacyclic⟩
  decide +kernel

/-! ## Enums without any enum above them -/

theorem multipleBases_iff {p : Policy} {y : Record} (hinherits : Inherits y) :
    (∃ d ∈ r.inheritanceReportsOn p id y, d.problem = .multipleEnumBases) ↔ 2 ≤ (r.enumRoots id).length := by
  constructor
  · rintro ⟨d, hd, hproblem⟩
    obtain ⟨-, ⟨-, rfl⟩ | ⟨hroots, -⟩ | ⟨severity, -, f, -, rfl⟩⟩ := mem_inheritanceReportsOn_iff.1 hd
    · cases hproblem
    · exact hroots
    · cases hproblem
  · exact fun hroots => ⟨_, mem_inheritanceReportsOn_iff.2 ⟨hinherits, Or.inr (Or.inl ⟨hroots, rfl⟩)⟩, rfl⟩

/-- The roots are the enums at and above an enum that name no enum as a supertype. They are those above which
there is no enum at all just when every enum there that has an enum above it names one. Then an enum above which
there is only one such enum is not reported to have several bases, as in any case only an enum with several
roots is. -/
theorem enumRoots_exact (r : Registry) {id : TypeId} (henum : r.isEnum id = true) :
    r.enumRoots id = (r.lineage id).filter (fun x => r.isEnum x = true ∧ ¬ r.NamesEnum x) ∧
    (r.enumRoots id = (r.lineage id).filter (fun x => r.isEnum x = true ∧ ¬ r.ReachesEnum x) ↔
      ∀ x ∈ r.lineage id, r.isEnum x = true → r.ReachesEnum x → r.NamesEnum x) ∧
    (∀ p y, r.get? id = some y →
      ((∃ d ∈ r.inheritanceReportsOn p id y, d.problem = .multipleEnumBases) ↔ 2 ≤ (r.enumRoots id).length)) ∧
    ((∀ x ∈ r.lineage id, r.isEnum x = true → r.ReachesEnum x → r.NamesEnum x) →
      ∀ root, (r.lineage id).filter (fun x => r.isEnum x = true ∧ ¬ r.ReachesEnum x) = [root] →
        ∀ p y, r.get? id = some y → ∀ d ∈ r.inheritanceReportsOn p id y, d.problem ≠ .multipleEnumBases) := by
  have hexact : r.enumRoots id = (r.lineage id).filter (fun x => r.isEnum x = true ∧ ¬ r.ReachesEnum x) ↔
      ∀ x ∈ r.lineage id, r.isEnum x = true → r.ReachesEnum x → r.NamesEnum x := by
    constructor
    · intro hsame x hx hkind hreaches
      by_contra hnames
      have hroot : x ∈ r.enumRoots id := mem_enumRoots_iff.2 ⟨henum, hx, hkind, hnames⟩
      rw [hsame, List.mem_filter, decide_eq_true_iff] at hroot
      exact hroot.2.2 hreaches
    · intro hnames
      rw [enumRoots_eq henum]
      refine List.filter_congr fun x hx => decide_eq_decide.2 (and_congr_right fun hkind => not_congr ?_)
      exact ⟨NamesEnum.reachesEnum, hnames x hx hkind⟩
  have hreport : ∀ p y, r.get? id = some y →
      ((∃ d ∈ r.inheritanceReportsOn p id y, d.problem = .multipleEnumBases) ↔ 2 ≤ (r.enumRoots id).length) := by
    intro p y hy
    obtain ⟨t, ht⟩ := isEnum_iff.1 henum
    obtain ⟨origin, hget⟩ := enum?_eq_some_iff.1 ht
    rw [hy] at hget
    obtain rfl := Option.some.inj hget
    exact multipleBases_iff (Or.inr rfl)
  refine ⟨enumRoots_eq henum, hexact, hreport, fun hnames root hsingle p y hy d hd hproblem => ?_⟩
  have hseveral := (hreport p y hy).1 ⟨d, hd, hproblem⟩
  rw [hexact.2 hnames, hsingle] at hseveral
  exact absurd hseveral (by simp)

/-- Between the reserve and the currencies there are only aliases and enums. -/
theorem enumRoots_exact_reserve :
    currencies.isEnum ⟨3⟩ = true ∧
      (∀ x ∈ currencies.lineage ⟨3⟩, currencies.isEnum x = true → currencies.ReachesEnum x → currencies.NamesEnum x) ∧
      currencies.enumRoots ⟨3⟩ = [⟨0⟩] ∧
      ∀ p y, currencies.get? ⟨3⟩ = some y →
        ∀ d ∈ currencies.inheritanceReportsOn p ⟨3⟩ y, d.problem ≠ .multipleEnumBases := by
  have henum : currencies.isEnum ⟨3⟩ = true := by decide +kernel
  have hnames : ∀ x ∈ currencies.lineage ⟨3⟩,
      currencies.isEnum x = true → currencies.ReachesEnum x → currencies.NamesEnum x := by decide +kernel
  have hsingle : (currencies.lineage ⟨3⟩).filter
      (fun x => currencies.isEnum x = true ∧ ¬ currencies.ReachesEnum x) = [⟨0⟩] := by decide +kernel
  obtain ⟨-, hexact, -, hreports⟩ := enumRoots_exact currencies henum
  exact ⟨henum, hnames, (hexact.2 hnames).trans hsingle, hreports hnames _ hsingle⟩

/-- The status inherits from the currencies, which are the only enum at or above it without an enum above them.
But as it names an object type only, it counts as a root itself, and is reported. -/
theorem enumRoots_past_object :
    currencies.isEnum ⟨5⟩ = true ∧ currencies.ReachesEnum ⟨5⟩ ∧
      (currencies.lineage ⟨5⟩).filter (fun x => currencies.isEnum x = true ∧ ¬ currencies.ReachesEnum x) = [⟨0⟩] ∧
      currencies.enumRoots ⟨5⟩ = [⟨5⟩, ⟨0⟩] ∧ currencies.baseEnum? ⟨5⟩ = none ∧
      (currencies.inheritanceReports {}).map (fun d => (d.problem, d.message)) = [(.multipleEnumBases,
        "Enum pay.Status inherits from multiple enums (pay.Status, pay.Currency), which is not supported")] := by
  decide +kernel

end SemanticSchema.Registry
