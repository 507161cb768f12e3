import SemanticSchema.Proofs.Enum.Lookups
import SemanticSchema.Proofs.Registry.Run

/-!
# Extensions of enums

The members of an enum are made anew on every reading, from the definition and from what all the
extensions add. What is added goes behind what there is, and none of it is what a lookup compares.

* `EnumExtension.decorate` : a member with what one extension adds to it;
* `EnumType.members_addExtension` : one more extension decorates each member;
* `EnumMember.identity` : what lookups read of a member. Extensions leave it alone;
* `EnumType.offer`, `EnumType.offerAll` : an extension that may be refused, and some, one after another;
* `Registry.get?_run_offers` : what a run of extensions makes of a recorded enum;
* `EnumType.offerAll_keeps_lookups` : lookups select the same places whatever has been offered.
-/

set_option autoImplicit false

namespace SemanticSchema

/-! ## One more extension -/

/-- Some texts, one to a line; nothing when there are none. -/
def joinLines : List String → Option String
  | [] => none
  | texts => some (String.intercalate "\n" texts)

/-- Lines that have been joined may be joined with more. -/
theorem joinLines_append (xs ys : List String) : joinLines ((joinLines xs).toList ++ ys) = joinLines (xs ++ ys) := by
  cases xs with
  | nil => rfl
  | cons x xs =>
    cases ys with
    | nil => simp [joinLines]
    | cons y ys =>
      have hjoined := @String.intercalate_append_of_ne_nil (x :: xs) (y :: ys) "\n" (by simp) (by simp)
      rw [List.cons_append] at hjoined
      simp [joinLines, hjoined]

/-- What an extension adds to the members of some name, in order. -/
def EnumExtension.entries (e : EnumExtension) (name : String) : List MemberExtension :=
  e.members.filter (·.name == name)

/-- A member with what an extension adds to it, behind what it has. -/
def EnumExtension.decorate (e : EnumExtension) (m : EnumMember) : EnumMember :=
  { m with
    annotations := m.annotations ++ (e.entries m.name).flatMap (·.annotations)
    synonyms := m.synonyms ++ (e.entries m.name).flatMap (·.synonyms)
    doc := joinLines (m.doc.toList ++ (e.entries m.name).filterMap (·.doc)) }

/-- A member keeps its doc when the extension has none for it. -/
theorem EnumExtension.doc_decorate {e : EnumExtension} {m : EnumMember} (h : ∀ x ∈ e.entries m.name, x.doc = none) :
    (e.decorate m).doc = m.doc := by
  have hnone : (e.entries m.name).filterMap (·.doc) = [] := List.filterMap_eq_nil_iff.2 h
  rw [decorate, hnone, List.append_nil]
  cases m.doc with
  | none => rfl
  | some text => simp [joinLines]

namespace EnumType

variable {t t' : EnumType} {e : EnumExtension} {es : List EnumExtension} {d : EnumDefinition}

theorem mergeMember_eq (t : EnumType) (m : EnumMember) : t.mergeMember m = { m with
    annotations := m.annotations ++ (t.memberExtensions m.name).flatMap (·.annotations)
    synonyms := m.synonyms ++ (t.memberExtensions m.name).flatMap (·.synonyms)
    doc := joinLines (m.doc.toList ++ (t.memberExtensions m.name).filterMap (·.doc)) } := rfl

theorem memberExtensions_addExtension (t : EnumType) (e : EnumExtension) (name : String) :
    memberExtensions (t.addExtension e) name = t.memberExtensions name ++ e.entries name := by
  rw [memberExtensions, Declared.addExtension, List.flatMap_append, List.flatMap_singleton, List.filter_append]
  rfl

theorem mergeMember_addExtension (t : EnumType) (e : EnumExtension) (m : EnumMember) :
    mergeMember (t.addExtension e) m = e.decorate (t.mergeMember m) := by
  rw [mergeMember_eq, mergeMember_eq, memberExtensions_addExtension, EnumExtension.decorate]
  simp only [List.flatMap_append, List.filterMap_append, joinLines_append, List.append_assoc]

theorem members_addExtension (t : EnumType) (e : EnumExtension) :
    members (t.addExtension e) = t.members.map e.decorate := by
  rw [members, members, List.map_map]
  exact List.map_congr_left fun m _ => mergeMember_addExtension t e m

/-- A defined enum accepts just the extensions that name only members of it. -/
theorem extend_eq_ok_iff (hd : t.definition = some d) : EnumType.extend t e = .ok t' ↔
    (∀ x ∈ e.members, ∃ m ∈ d.members, m.name = x.name) ∧ t' = t.addExtension e := by
  have hknown : (e.members.filter fun x => !d.members.any (·.name == x.name)) = [] ↔
      ∀ x ∈ e.members, ∃ m ∈ d.members, m.name = x.name := by
    simp [List.filter_eq_nil_iff]
  rw [← hknown]
  simp only [EnumType.extend, hd]
  cases e.members.filter fun x => !d.members.any (·.name == x.name) with
  | nil => exact ⟨fun h => ⟨rfl, (Except.ok.inj h).symm⟩, fun h => congrArg Except.ok h.2.symm⟩
  | cons x xs => exact ⟨nofun, fun h => absurd h.1 (List.cons_ne_nil _ _)⟩

theorem exists_refusal_iff (hd : t.definition = some d) :
    (∃ refusal, EnumType.extend t e = .error refusal) ↔ ∃ x ∈ e.members, ∀ m ∈ d.members, m.name ≠ x.name := by
  cases h : EnumType.extend t e with
  | ok t' =>
    obtain ⟨hknown, -⟩ := (extend_eq_ok_iff hd).1 h
    constructor
    · rintro ⟨refusal, hrefused⟩
      cases hrefused
    · rintro ⟨x, hx, hnew⟩
      obtain ⟨m, hm, hname⟩ := hknown x hx
      exact absurd hname (hnew m hm)
  | error refusal =>
    refine ⟨fun _ => ?_, fun _ => ⟨refusal, rfl⟩⟩
    by_contra hnone
    have hknown : ∀ x ∈ e.members, ∃ m ∈ d.members, m.name = x.name := by
      simpa using hnone
    have hok := (extend_eq_ok_iff hd).2 ⟨hknown, rfl⟩
    rw [h] at hok
    cases hok

/-! ## Some extensions, one after another -/

/-- Offers an extension to an enum, which stays as it is if the extension is refused. -/
def offer (t : EnumType) (e : EnumExtension) : EnumType :=
  match EnumType.extend t e with
  | .ok t' => t'
  | .error _ => t

/-- Offers some extensions, one after another. -/
def offerAll (t : EnumType) (es : List EnumExtension) : EnumType := es.foldl offer t

theorem offer_of_ok (h : EnumType.extend t e = .ok t') : t.offer e = t' := by rw [offer, h]

theorem offer_of_error {refusal : EnumRefusal} (h : EnumType.extend t e = .error refusal) : t.offer e = t := by
  rw [offer, h]

theorem offer_cases (t : EnumType) (e : EnumExtension) : t.offer e = t ∨ t.offer e = t.addExtension e := by
  cases h : EnumType.extend t e with
  | error refusal => exact Or.inl (offer_of_error h)
  | ok t' => exact Or.inr ((offer_of_ok h).trans (addExtension_of_extend h))

/-- No extension touches the name or the definition. -/
theorem offer_same (t : EnumType) (e : EnumExtension) :
    (t.offer e).name = t.name ∧ (t.offer e).definition = t.definition := by
  obtain h | h := offer_cases t e
  · rw [h]
    exact ⟨rfl, rfl⟩
  · rw [h]
    exact ⟨rfl, rfl⟩

theorem offerAll_same (t : EnumType) (es : List EnumExtension) :
    (t.offerAll es).name = t.name ∧ (t.offerAll es).definition = t.definition := by
  induction es generalizing t with
  | nil => exact ⟨rfl, rfl⟩
  | cons e es ih =>
    obtain ⟨hname, hdefinition⟩ := offer_same t e
    exact ⟨(ih (t.offer e)).1.trans hname, (ih (t.offer e)).2.trans hdefinition⟩

end EnumType

/-! ## What lookups read -/

/-- What stays the same of a member; lookups read no more than this. -/
structure EnumMember.Identity where
  name : String
  value : Literal
  qualified : QualifiedName
  isDefault : Bool

def EnumMember.identity (m : EnumMember) : EnumMember.Identity := ⟨m.name, m.value, m.qualified, m.isDefault⟩

namespace EnumType

variable {t before : EnumType} {d : EnumDefinition}

/-- Whatever the extensions are, they leave the identities alone. -/
theorem map_identity_members (t : EnumType) :
    t.members.map EnumMember.identity = t.declaredMembers.map EnumMember.identity := by
  rw [members, List.map_map]
  rfl

theorem any_identity (t : EnumType) (reads : EnumMember.Identity → Bool) :
    (t.members.any fun m => reads m.identity) = (t.declaredMembers.map EnumMember.identity).any reads := by
  rw [← map_identity_members, List.any_map]
  rfl

theorem place?_identity (t : EnumType) (reads : EnumMember.Identity → Bool) :
    (t.place? fun m => reads m.identity) = ((t.declaredMembers.map EnumMember.identity).findIdx? reads).or
      ((t.declaredMembers.map EnumMember.identity).findIdx? (·.isDefault)) := by
  rw [← map_identity_members, List.findIdx?_map, List.findIdx?_map]
  rfl

/-- The lookups for a text do in `t` what they do in `before`: each answers with the member of `t` at the
place that it selects in `before`, or fails as it fails there. -/
structure AnswersAs (t before : EnumType) (text : String) : Prop where
  name : t.ofName text = t.answerAt (before.place? (before.matchesName text)) (.noSuchName before.name text)
  value : t.ofValue text = t.answerAt (before.place? (before.matchesValue text)) (.noSuchValue before.name text)
  token : t.ofToken text =
    t.answerAt (before.place? (before.matchesToken text)) (.noSuchNameOrValue before.name text)
  explicit : t.hasExplicitValue text = before.hasExplicitValue text
  onlyDefault : t.resolvesToDefault text = before.resolvesToDefault text

theorem matchesText_of_same (h : t.definition = before.definition) : t.matchesText = before.matchesText := by
  funext candidate requested
  rw [matchesText, matchesText, isLenient, isLenient, h]

theorem place?_of_same (h : t.definition = before.definition) (reads : EnumMember.Identity → Bool) :
    (t.place? fun m => reads m.identity) = before.place? fun m => reads m.identity := by
  rw [place?_identity, place?_identity, declaredMembers, declaredMembers, h]

theorem any_of_same (h : t.definition = before.definition) (reads : EnumMember.Identity → Bool) :
    (t.members.any fun m => reads m.identity) = before.members.any fun m => reads m.identity := by
  rw [any_identity, any_identity, declaredMembers, declaredMembers, h]

/-- Lookups depend on the name and the definition only. -/
theorem answersAs_of_same (hname : t.name = before.name) (h : t.definition = before.definition) (text : String) :
    t.AnswersAs before text := by
  have hmatchesName : t.matchesName text = before.matchesName text := by
    funext m
    rw [matchesName, matchesName, matchesText_of_same h]
  have hmatchesValue : t.matchesValue text = before.matchesValue text := by
    funext m
    rw [matchesValue, matchesValue, matchesText_of_same h]
  have hmatchesToken : t.matchesToken text = before.matchesToken text := by
    funext m
    rw [matchesToken, matchesToken, hmatchesName, hmatchesValue]
  refine ⟨?_, ?_, ?_, ?_, ?_⟩
  · rw [ofName_eq, hname, hmatchesName]
    exact congrArg (t.answerAt · _) (place?_of_same h fun x => before.matchesText x.name text)
  · rw [ofValue_eq, hname, hmatchesValue]
    exact congrArg (t.answerAt · _) (place?_of_same h fun x => before.matchesText x.value.display text)
  · rw [ofToken_eq, hname, hmatchesToken]
    exact congrArg (t.answerAt · _) (place?_of_same h
      fun x => before.matchesText x.value.display text || before.matchesText x.name text)
  · rw [hasExplicitValue, hasExplicitValue, hmatchesValue]
    exact any_of_same h fun x => before.matchesText x.value.display text
  · rw [resolvesToDefault, resolvesToDefault, hmatchesToken]
    exact congrArg₂ (fun matched hasDefault => !matched && hasDefault)
      (any_of_same h fun x => before.matchesText x.value.display text || before.matchesText x.name text)
      (any_of_same h (·.isDefault))

end EnumType

/-! ## Recorded enums -/

namespace Registry

variable {r : Registry} {name : QualifiedName} {id : TypeId} {t : EnumType} {origin : Span}

/-- An extension of a recorded enum is offered to it; a refusal leaves the registry as it was. -/
theorem extend_enum (hid : r.idOf? name = some id) (hx : r.get? id = some ⟨.enum t, origin⟩) (e : EnumExtension) :
    (∀ refusal, EnumType.extend t e = .error refusal →
      (r.extend name (.enum e)).1 ≠ none ∧ (r.extend name (.enum e)).2 = r) ∧
    ∀ t', EnumType.extend t e = .ok t' → r.extend name (.enum e) = (none, r.setBody id (.enum t')) := by
  simp only [extend, extensionSlot, hid, extendSlot, hx, TypeBody.extend]
  constructor
  · intro refusal h
    rw [h]
    exact ⟨Option.some_ne_none _, rfl⟩
  · intro t' h
    rw [h]
    rfl

theorem get?_extend_enum (hid : r.idOf? name = some id) (hx : r.get? id = some ⟨.enum t, origin⟩) (e : EnumExtension) :
    (r.extend name (.enum e)).2.idOf? name = some id ∧
      (r.extend name (.enum e)).2.get? id = some ⟨.enum (t.offer e), origin⟩ := by
  obtain ⟨hrefused, haccepted⟩ := extend_enum hid hx e
  cases h : EnumType.extend t e with
  | error refusal =>
    rw [(hrefused refusal h).2, EnumType.offer_of_error h]
    exact ⟨hid, hx⟩
  | ok t' =>
    rw [haccepted t' h, EnumType.offer_of_ok h]
    have hname : (TypeBody.enum t').name = (TypeBody.enum t).name := by
      rw [EnumType.addExtension_of_extend h]
      rfl
    exact ⟨(idOf?_congr (names_setBody hx hname)).trans hid, get?_setBody_self (.enum t') hx⟩

/-- A run of extensions of a recorded enum offers them to it, one after another. -/
theorem get?_run_offers (hid : r.idOf? name = some id) (hx : r.get? id = some ⟨.enum t, origin⟩)
    (es : List EnumExtension) :
    (r.run (es.map fun e => .extend name (.enum e))).get? id = some ⟨.enum (t.offerAll es), origin⟩ := by
  induction es generalizing r t with
  | nil => exact hx
  | cons e es ih =>
    obtain ⟨hid', hx'⟩ := get?_extend_enum hid hx e
    exact ih hid' hx'

end Registry

/-! ## Lookups -/

namespace EnumType

/-- Extensions never change what a lookup finds. Whatever has been offered to a defined enum, accepted or
refused, its members are in name, value, qualified name and default mark those of the definition, in the
same order, and every lookup selects the same place as before or fails as before. An extension is refused
exactly when it names something that is no member; then the enum stays as it is. One that is accepted
puts its annotations, synonyms and doc texts behind those of each member that it names, and does no more;
the doc of a member stays the same if the extension has none for it. In a registry, extensions of the
enum's name come to just this. -/
theorem offerAll_keeps_lookups {t : EnumType} {d : EnumDefinition} (hd : t.definition = some d)
    (es : List EnumExtension) :
    let after := t.offerAll es
    after.members.map EnumMember.identity = d.members.map EnumMember.identity ∧
    (∀ text, t.AnswersAs t text ∧ after.AnswersAs t text) ∧
    (∀ e, ((∃ refusal, EnumType.extend after e = .error refusal) ↔
        ∃ x ∈ e.members, ∀ m ∈ d.members, m.name ≠ x.name) ∧
      (∀ refusal, EnumType.extend after e = .error refusal → after.offer e = after) ∧
      ∀ t', EnumType.extend after e = .ok t' → after.offer e = t' ∧ t'.members = after.members.map e.decorate) ∧
    (∀ (e : EnumExtension) (m : EnumMember), (∀ x ∈ e.entries m.name, x.doc = none) → (e.decorate m).doc = m.doc) ∧
    ∀ (r : Registry) (id : TypeId) (origin : Span),
      r.idOf? t.name = some id → r.get? id = some ⟨.enum t, origin⟩ →
      (r.run (es.map fun e => .extend t.name (.enum e))).get? id = some ⟨.enum after, origin⟩ := by
  intro after
  obtain ⟨hname, hdefinition⟩ := offerAll_same t es
  have hafter : after.definition = some d := hdefinition.trans hd
  refine ⟨?_, fun text => ?_, fun e => ⟨?_, ?_, ?_⟩, fun e m => EnumExtension.doc_decorate, ?_⟩
  · rw [map_identity_members, declaredMembers, hafter]
  · exact ⟨answersAs_of_same rfl rfl text, answersAs_of_same hname hdefinition text⟩
  · exact exists_refusal_iff hafter
  · exact fun refusal h => offer_of_error h
  · intro t' h
    refine ⟨offer_of_ok h, ?_⟩
    rw [addExtension_of_extend h, members_addExtension]
  · exact fun r id origin hid hx => Registry.get?_run_offers hid hx es

/-- A member that two accepted extensions name, and a third that is refused for a name that is none. -/
theorem offerAll_keeps_lookups_shade :
    let extending (name synonym : String) : EnumExtension :=
      { members := [{ name := name, synonyms := [.ofParts "iso" synonym], doc := some synonym }] }
    let d : EnumDefinition := { members := [EnumMember.ofName (.ofParts "paint" "Shade") "Dark" none] }
    let t : EnumType := .defined (.ofParts "paint" "Shade") d
    let after := t.offerAll [extending "Dark" "Black", extending "Bright" "White", extending "Dark" "Night"]
    t.definition = some d ∧ after.members.map EnumMember.identity = d.members.map EnumMember.identity ∧
      after.ofName "Dark" = after.answerAt (some 0) (.noSuchName t.name "Dark") ∧
      after.ofName "Bright" = .error (.noSuchName t.name "Bright") ∧
      after.members.map (·.doc) = [some "Black\nNight"] := by
  intro extending d t after
  obtain ⟨hidentities, hanswers, -⟩ := offerAll_keeps_lookups (t := t) (d := d) rfl
    [extending "Dark" "Black", extending "Bright" "White", extending "Dark" "Night"]
  have hdark : t.place? (t.matchesName "Dark") = some 0 := by decide
  have hbright : t.place? (t.matchesName "Bright") = none := by decide
  have hfound := (hanswers "Dark").2.name
  have hfailed := (hanswers "Bright").2.name
  rw [hdark] at hfound
  rw [hbright] at hfailed
  exact ⟨rfl, hidentities, hfound, hfailed, by decide⟩

/-- A doc text of an accepted extension is added as well, beside annotations and synonyms. -/
theorem offer_adds_doc :
    let t : EnumType :=
      .defined (.ofParts "pay" "Currency") { members := [EnumMember.ofName (.ofParts "pay" "Currency") "GBP" none] }
    let e : EnumExtension := { members := [{ name := "GBP", doc := some "Pound sterling" }] }
    ∃ t', EnumType.extend t e = .ok t' ∧ t.offer e = t' ∧
      t.members.map (·.doc) = [none] ∧ t'.members.map (·.doc) = [some "Pound sterling"] ∧
      t'.members ≠ t.members.map fun m => { m with
        annotations := m.annotations ++ (e.entries m.name).flatMap (·.annotations)
        synonyms := m.synonyms ++ (e.entries m.name).flatMap (·.synonyms) } := by
  intro t e
  refine ⟨t.addExtension e, rfl, rfl, rfl, rfl, fun h => ?_⟩
  have hdocs := congrArg (List.map (·.doc)) h
  revert hdocs
  decide

end EnumType

end SemanticSchema
