import SemanticSchema.EnumType.Lookup

/-!
# Lookups of enum members

The three lookups differ only in the text of a member that they compare, and in their failure. Each
selects a place among the members: the first that matches, or else the first that is marked as the
default.

* `FirstAt` : the first entry of a list that is chosen stands at some place;
* `EnumType.place?`, `EnumType.answerAt` : the place that a lookup selects, and the answer for it;
* `EnumType.ofName_eq`, `EnumType.ofValue_eq`, `EnumType.ofToken_eq` : each lookup in these terms;
* `EnumType.place?_eq_some_iff`, `EnumType.place?_eq_none_iff` : the place that is selected;
* `EnumType.lookups_fit` : the lookups agree with each other.
-/

set_option autoImplicit false

namespace SemanticSchema

/-- The first of `xs` that is chosen stands at place `i`. -/
structure FirstAt {α : Type} (xs : List α) (chosen : α → Bool) (i : Nat) : Prop where
  here : ∃ x, xs[i]? = some x ∧ chosen x = true
  earlier : ∀ j < i, ∀ x, xs[j]? = some x → chosen x = false

theorem findIdx?_eq_some_iff_firstAt {α : Type} {xs : List α} {chosen : α → Bool} {i : Nat} :
    xs.findIdx? chosen = some i ↔ FirstAt xs chosen i := by
  rw [List.findIdx?_eq_some_iff_getElem]
  constructor
  · rintro ⟨hi, hchosen, hearlier⟩
    refine ⟨⟨_, List.getElem?_eq_getElem hi, hchosen⟩, fun j hj x hx => ?_⟩
    obtain ⟨_, rfl⟩ := List.getElem?_eq_some_iff.1 hx
    exact Bool.eq_false_iff.2 (hearlier j hj)
  · rintro ⟨⟨x, hx, hchosen⟩, hearlier⟩
    obtain ⟨hi, rfl⟩ := List.getElem?_eq_some_iff.1 hx
    exact ⟨hi, hchosen, fun j hj => Bool.eq_false_iff.1 (hearlier j hj _ (List.getElem?_eq_getElem _))⟩

namespace EnumType

variable {t : EnumType} {chosen : EnumMember → Bool} {failure : EnumLookupError} {token : String} {m : EnumMember}

/-! ## Places -/

/-- The place that a lookup selects: the first member that is chosen, or else the first default. -/
def place? (t : EnumType) (chosen : EnumMember → Bool) : Option Nat :=
  (t.members.findIdx? chosen).or (t.members.findIdx? (·.isDefault))

/-- The answer of a lookup: the member at the place that it selects, or its failure if there is none. -/
def answerAt (t : EnumType) (place : Option Nat) (failure : EnumLookupError) :
    Except EnumLookupError EnumMember :=
  match place.bind (t.members[·]?) with
  | some m => .ok m
  | none => .error failure

theorem place?_eq_some_iff {i : Nat} : t.place? chosen = some i ↔
    FirstAt t.members chosen i ∨ (∀ x ∈ t.members, chosen x = false) ∧ FirstAt t.members (·.isDefault) i := by
  rw [place?, Option.or_eq_some_iff, List.findIdx?_eq_none_iff, findIdx?_eq_some_iff_firstAt,
    findIdx?_eq_some_iff_firstAt]

theorem place?_eq_none_iff : t.place? chosen = none ↔
    (∀ x ∈ t.members, chosen x = false) ∧ ∀ x ∈ t.members, x.isDefault = false := by
  rw [place?, Option.or_eq_none_iff, List.findIdx?_eq_none_iff, List.findIdx?_eq_none_iff]

theorem lookup?_eq (t : EnumType) (chosen : EnumMember → Bool) :
    t.lookup? chosen = (t.place? chosen).bind (t.members[·]?) := by
  rw [lookup?, defaultMember?, List.find?_eq_bind_findIdx?_getElem?, List.find?_eq_bind_findIdx?_getElem?, place?]
  cases hchosen : t.members.findIdx? chosen with
  | none => rfl
  | some i =>
    obtain ⟨x, hx, -⟩ := (findIdx?_eq_some_iff_firstAt.1 hchosen).here
    simp only [Option.bind_some, Option.some_or, hx]

theorem ofName_eq (t : EnumType) (name : String) :
    t.ofName name = t.answerAt (t.place? (t.matchesName name)) (.noSuchName t.name name) := by
  rw [ofName, lookup?_eq]
  rfl

theorem ofValue_eq (t : EnumType) (value : String) :
    t.ofValue value = t.answerAt (t.place? (t.matchesValue value)) (.noSuchValue t.name value) := by
  rw [ofValue, lookup?_eq]
  rfl

theorem ofToken_eq (t : EnumType) (token : String) :
    t.ofToken token = t.answerAt (t.place? (t.matchesToken token)) (.noSuchNameOrValue t.name token) := by
  rw [ofToken, lookup?_eq]
  rfl

/-! ## Answers -/

theorem exists_member_of_place? {i : Nat} (h : t.place? chosen = some i) : ∃ m, t.members[i]? = some m := by
  rcases place?_eq_some_iff.1 h with hfirst | ⟨-, hfirst⟩
  · exact hfirst.here.imp fun _ hx => hx.1
  · exact hfirst.here.imp fun _ hx => hx.1

/-- What a lookup answers is the member at the place that it selects. -/
theorem answerAt_eq_ok_iff : t.answerAt (t.place? chosen) failure = .ok m ↔
    ∃ i, t.place? chosen = some i ∧ t.members[i]? = some m := by
  rw [← Option.bind_eq_some_iff]
  unfold answerAt
  cases (t.place? chosen).bind (t.members[·]?) <;> simp

/-- A lookup fails exactly when it selects no place, and with its own failure. -/
theorem answerAt_eq_error_iff {e : EnumLookupError} :
    t.answerAt (t.place? chosen) failure = .error e ↔ t.place? chosen = none ∧ e = failure := by
  cases hplace : t.place? chosen with
  | none => simp [answerAt, eq_comm]
  | some i =>
    obtain ⟨m, hm⟩ := exists_member_of_place? hplace
    simp [answerAt, hm]

theorem isOk_answerAt : (t.answerAt (t.place? chosen) failure).isOk =
    (t.members.any chosen || t.members.any (·.isDefault)) := by
  rw [← List.findIdx?_isSome, ← List.findIdx?_isSome, ← Option.isSome_or]
  show _ = (t.place? chosen).isSome
  cases hplace : t.place? chosen with
  | none => rfl
  | some i =>
    obtain ⟨m, hm⟩ := exists_member_of_place? hplace
    simp only [answerAt, Option.bind_some, hm]
    rfl

/-- When some member is chosen, the lookup answers with a member that is. -/
theorem exists_answerAt_of_chosen (h : t.members.any chosen = true) (failure : EnumLookupError) :
    ∃ m ∈ t.members, t.answerAt (t.place? chosen) failure = .ok m ∧ chosen m = true := by
  rw [← List.findIdx?_isSome, Option.isSome_iff_exists] at h
  obtain ⟨i, hi⟩ := h
  obtain ⟨m, hm, hchosen⟩ := (findIdx?_eq_some_iff_firstAt.1 hi).here
  refine ⟨m, List.mem_of_getElem? hm, answerAt_eq_ok_iff.2 ⟨i, ?_, hm⟩, hchosen⟩
  rw [place?, hi, Option.some_or]

/-- When none is chosen, it answers with the default member. -/
theorem answerAt_of_none_chosen (h : t.members.any chosen = false) (hdefault : t.defaultMember? = some m)
    (failure : EnumLookupError) : t.answerAt (t.place? chosen) failure = .ok m := by
  rw [← List.findIdx?_isSome, Option.isSome_eq_false_iff, Option.isNone_iff_eq_none] at h
  rw [defaultMember?, List.find?_eq_bind_findIdx?_getElem?] at hdefault
  rw [place?, h, Option.none_or, answerAt, hdefault]

/-! ## Agreement -/

theorem any_matchesToken (t : EnumType) (token : String) :
    t.members.any (t.matchesToken token) =
      (t.members.any (t.matchesName token) || t.members.any (t.matchesValue token)) := by
  rw [Bool.eq_iff_iff, Bool.or_eq_true, List.any_eq_true, List.any_eq_true, List.any_eq_true]
  simp only [matchesToken, Bool.or_eq_true, and_or_left, exists_or]
  exact or_comm

theorem has_eq (t : EnumType) (token : String) : t.has token = (t.hasName token || t.hasValue token) := by
  rw [has, hasName, hasValue, ofToken_eq, ofName_eq, ofValue_eq, isOk_answerAt, isOk_answerAt, isOk_answerAt,
    any_matchesToken]
  cases t.members.any (t.matchesName token) <;> cases t.members.any (·.isDefault) <;> simp

theorem has_iff : t.has token = true ↔ ∃ m, t.ofToken token = .ok m := by
  unfold has
  cases t.ofToken token <;> simp [Except.isOk, Except.toBool]

theorem resolvesToDefault_eq (t : EnumType) (token : String) :
    t.resolvesToDefault token = (!t.members.any (t.matchesToken token) && t.has token) := by
  rw [resolvesToDefault, has, ofToken_eq, isOk_answerAt]
  cases t.members.any (t.matchesToken token) <;> rfl

/-- When only the default answers, it answers to all three lookups. -/
theorem answers_of_resolvesToDefault (h : t.resolvesToDefault token = true) : ∃ m, t.defaultMember? = some m ∧
    t.ofToken token = .ok m ∧ t.ofName token = .ok m ∧ t.ofValue token = .ok m := by
  obtain ⟨hnone, hdefault⟩ := Bool.and_eq_true_iff.1 h
  rw [Bool.not_eq_true'] at hnone
  obtain ⟨hname, hvalue⟩ :
      t.members.any (t.matchesName token) = false ∧ t.members.any (t.matchesValue token) = false := by
    rwa [any_matchesToken, Bool.or_eq_false_iff] at hnone
  obtain ⟨m, hm⟩ : ∃ m, t.defaultMember? = some m :=
    Option.isSome_iff_exists.1 (List.isSome_find?.trans hdefault)
  rw [ofToken_eq, ofName_eq, ofValue_eq]
  exact ⟨m, hm, answerAt_of_none_chosen hnone hm _, answerAt_of_none_chosen hname hm _,
    answerAt_of_none_chosen hvalue hm _⟩

/-- The lookups of an enum fit together, whatever its members and however many defaults there are. The
combined lookup answers with the first member whose value or name has the text; if there is none, with
the first default; and if there is none either, it fails. It succeeds exactly when one of the two others
does. Only the default answers to a text exactly when the combined lookup succeeds though no member
matches, and then all three answer with the default. If some value has the text, the lookup by value
answers with such a member, and not by the default. -/
theorem lookups_fit (t : EnumType) (token : String) :
    let matching : EnumMember → Bool := fun m =>
      t.matchesText m.value.display token || t.matchesText m.name token
    (∀ m, t.ofToken token = .ok m ↔ ∃ i, t.members[i]? = some m ∧ (FirstAt t.members matching i ∨
      (∀ x ∈ t.members, matching x = false) ∧ FirstAt t.members (·.isDefault) i)) ∧
    (∀ e, t.ofToken token = .error e ↔ e = .noSuchNameOrValue t.name token ∧
      (∀ x ∈ t.members, matching x = false) ∧ ∀ x ∈ t.members, x.isDefault = false) ∧
    (t.has token = true ↔ t.hasName token = true ∨ t.hasValue token = true) ∧
    (t.resolvesToDefault token = true ↔
      (∃ m, t.ofToken token = .ok m) ∧ ∀ x ∈ t.members, matching x = false) ∧
    (t.resolvesToDefault token = true → ∃ m, t.defaultMember? = some m ∧
      t.ofToken token = .ok m ∧ t.ofName token = .ok m ∧ t.ofValue token = .ok m) ∧
    (t.hasExplicitValue token = true → t.resolvesToDefault token = false ∧
      ∃ m ∈ t.members, t.ofValue token = .ok m ∧ t.matchesText m.value.display token = true) := by
  intro matching
  have hmatching : t.matchesToken token = matching := rfl
  have hok : ∀ m, t.ofToken token = .ok m ↔ ∃ i, t.members[i]? = some m ∧ (FirstAt t.members matching i ∨
      (∀ x ∈ t.members, matching x = false) ∧ FirstAt t.members (·.isDefault) i) := by
    intro m
    rw [ofToken_eq, answerAt_eq_ok_iff, hmatching]
    simp only [place?_eq_some_iff, and_comm]
  have herror : ∀ e, t.ofToken token = .error e ↔ e = .noSuchNameOrValue t.name token ∧
      (∀ x ∈ t.members, matching x = false) ∧ ∀ x ∈ t.members, x.isDefault = false := by
    intro e
    rw [ofToken_eq, answerAt_eq_error_iff, place?_eq_none_iff, hmatching, and_comm]
  refine ⟨hok, herror, ?_, ?_, ?_, ?_⟩
  · rw [has_eq, Bool.or_eq_true]
  · rw [resolvesToDefault_eq, Bool.and_eq_true, has_iff, Bool.not_eq_true', List.any_eq_false, and_comm]
    simp only [Bool.not_eq_true, hmatching]
  · exact answers_of_resolvesToDefault
  · intro hexplicit
    have htoken : t.members.any (t.matchesToken token) = true := by
      rw [any_matchesToken, Bool.or_eq_true]
      exact Or.inr hexplicit
    rw [ofValue_eq, resolvesToDefault_eq, htoken]
    exact ⟨rfl, exists_answerAt_of_chosen hexplicit _⟩

/-- A lenient enum in which one member has another's name as its value, and two are defaults. -/
theorem lookups_fit_shade :
    let member (name value : String) (isDefault : Bool) : EnumMember :=
      { EnumMember.ofName (.ofParts "paint" "Shade") name (some (.text value)) with isDefault := isDefault }
    let light := member "Light" "dark" false
    let dark := member "Dark" "night" false
    let other := member "Other" "?" true
    let t : EnumType := .defined (.ofParts "paint" "Shade")
      { members := [light, dark, other, member "Unknown" "?" true], lenient := true }
    t.ofToken "DARK" = .ok light ∧
    (t.resolvesToDefault "Red" = true ∧ t.ofToken "Red" = .ok other ∧ t.ofName "Red" = .ok other ∧
      t.ofValue "Red" = .ok other) ∧
    t.hasExplicitValue "NIGHT" = true ∧ t.resolvesToDefault "NIGHT" = false ∧ t.ofValue "NIGHT" = .ok dark := by
  intro member light dark other t
  have hfirst : FirstAt t.members (t.matchesToken "DARK") 0 := findIdx?_eq_some_iff_firstAt.1 (by decide)
  have hred : t.resolvesToDefault "Red" = true := by decide
  have hnight : t.hasExplicitValue "NIGHT" = true := by decide
  obtain ⟨m, hm, htoken, hname, hvalue⟩ := (lookups_fit t "Red").2.2.2.2.1 hred
  obtain rfl : other = m := Option.some.inj hm
  obtain ⟨hown, -⟩ := (lookups_fit t "NIGHT").2.2.2.2.2 hnight
  have hplace : t.place? (t.matchesValue "NIGHT") = some 1 := by decide
  refine ⟨((lookups_fit t "DARK").1 light).2 ⟨0, rfl, Or.inl hfirst⟩, ⟨hred, htoken, hname, hvalue⟩, hnight, hown, ?_⟩
  rw [ofValue_eq, hplace]
  rfl

end EnumType

end SemanticSchema
