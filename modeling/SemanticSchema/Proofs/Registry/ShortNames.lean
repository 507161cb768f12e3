import Mathlib.Tactic.SplitIfs
import SemanticSchema.Registry.Qualify

/-!
# Short spellings

Inside a namespace a name may be written without its namespace, and a bare word is completed again when it is
read there. The two do not undo each other for every name: a bare word means a built-in before anything
else, and then a name of the namespace in which it stands.

* `QualifiedName.builtinWords` : the bare words that mean a built-in;
* `QualifiedName.parse_dotted` : a spelling with a dot is read back as the name;
* `Registry.qualify_dotted`, `Registry.qualify_bare` : what a spelling with a dot and a bare word mean;
* `QualifiedName.SpelledBare`, `Registry.qualify_relativeTo` : what the short spelling of a name means where it
  stands, and exactly when that is the name.
-/

set_option autoImplicit false

namespace SemanticSchema

namespace QualifiedName

variable {n : QualifiedName} {simple : String}

/-- The words that mean a built-in wherever they stand bare. -/
def builtinWords : List String := TypeRef.voidName :: Primitive.all.map Primitive.simpleName

theorem ofName?_bare_eq_some_iff {p : Primitive} :
    Primitive.ofName? (ofParts "" simple) = some p ↔ p.simpleName = simple := by
  constructor
  · intro h
    unfold Primitive.ofName? at h
    have hp := List.find?_some h
    rw [isBuiltin, Bool.and_eq_true, beq_iff_eq] at hp
    exact hp.1.symm
  · rintro rfl
    cases p <;> rfl

theorem mem_builtinWords_iff :
    simple ∈ builtinWords ↔ simple = TypeRef.voidName ∨ ∃ p, Primitive.ofName? (ofParts "" simple) = some p := by
  have hall (p : Primitive) : p ∈ Primitive.all := by cases p <;> decide
  simp only [builtinWords, List.mem_cons, List.mem_map, ofName?_bare_eq_some_iff, hall, true_and]

/-- A name without parameters is read off its namespace, a dot and its simple name, even if the namespace is
empty. -/
theorem parse_dotted (hparams : n.params = []) (hdot : '.' ∉ n.simple.toList) : parse (n.ns ++ "." ++ n.simple) = n := by
  obtain ⟨ns, simple, params⟩ := n
  cases hparams
  have hsplit : Text.splitLast? (ns ++ "." ++ simple).toList = some (ns.toList, simple.toList) := by
    rw [String.toList_append, String.toList_append, List.append_assoc]
    exact Text.splitLast?_append ns.toList hdot
  rw [parse, hsplit]
  simp only [String.ofList_toList]
  rfl

theorem ofParts_eq_iff {ns : String} (hparams : n.params = []) : ofParts ns n.simple = n ↔ n.ns = ns := by
  obtain ⟨own, simple, params⟩ := n
  cases hparams
  simp only [ofParts, mk.injEq, and_true]
  exact eq_comm

/-- The short spelling of a name inside a namespace is its simple name alone. -/
def SpelledBare (n : QualifiedName) (ns : String) : Prop := n.ns = ns ∨ n.ns = builtinNamespace ∨ n.ns = ""

instance (n : QualifiedName) (ns : String) : Decidable (n.SpelledBare ns) :=
  inferInstanceAs (Decidable (_ ∨ _))

theorem relativeTo_eq (n : QualifiedName) (ns : String) :
    n.relativeTo ns = if n.SpelledBare ns then n.simple else n.ns ++ "." ++ n.simple := by
  unfold relativeTo
  by_cases hhome : n.ns = ns ∨ n.ns = builtinNamespace
  · have hbare : n.SpelledBare ns := hhome.imp_right Or.inl
    rw [if_pos hhome, if_pos hbare]
  · rw [if_neg hhome]
    unfold qualified isUnqualified
    by_cases hempty : n.ns = ""
    · have hbare : n.SpelledBare ns := Or.inr (Or.inr hempty)
      rw [if_pos (beq_iff_eq.2 hempty), if_pos hbare]
    · have hfull : ¬ n.SpelledBare ns := fun hbare => hhome (hbare.imp_right (Or.resolve_right · hempty))
      rw [if_neg (mt beq_iff_eq.1 hempty), if_neg hfull]

end QualifiedName

namespace Registry

open QualifiedName

variable {r : Registry}

theorem qualify_dotted (r : Registry) (ns : String) {name : String} (h : '.' ∈ name.toList) :
    r.qualify ns name = .ok (.parse name) :=
  if_pos (List.contains_iff_mem.2 h)

/-- Without imports a bare word means a built-in, or else a name of the namespace. -/
theorem qualify_bare (himports : r.imports = []) (ns : String) {name : String} (h : '.' ∉ name.toList) :
    r.qualify ns name = .ok (.ofParts (if name ∈ builtinWords then builtinNamespace else ns) name) := by
  unfold qualify
  rw [if_neg (mt List.contains_iff_mem.1 h)]
  cases hprimitive : Primitive.ofName? (ofParts "" name) with
  | some p =>
    rw [if_pos (mem_builtinWords_iff.2 (Or.inr ⟨p, hprimitive⟩)), ← ofName?_bare_eq_some_iff.1 hprimitive]
    rfl
  | none =>
    have hnone : ¬ ∃ p, Primitive.ofName? (ofParts "" name) = some p := by simp [hprimitive]
    by_cases hvoid : name = TypeRef.voidName
    · subst hvoid
      rfl
    · have hword : name ∉ builtinWords := fun hmem => (mem_builtinWords_iff.1 hmem).elim hvoid hnone
      simp only [if_neg hvoid, if_neg hword, importsNamed, himports, List.filter_nil]

/-- Without imports every name without parameters has a spelling that is read as the name wherever it stands: with
its namespace, be it empty, and a dot. The short spelling inside a namespace leaves both out for the names
of this namespace, for those of the namespace of the built-ins, and for those of the empty one. The bare
word is read as a name in the namespace of the built-ins if it means one, and else in the namespace where
it stands; so it means the name only if the name is there. -/
theorem qualify_relativeTo (r : Registry) (himports : r.imports = []) (ns : String) (n : QualifiedName)
    (hparams : n.params = []) (hdot : '.' ∉ n.simple.toList) :
    let home := if n.simple ∈ builtinWords then builtinNamespace else ns
    r.qualify ns (n.ns ++ "." ++ n.simple) = .ok n ∧
      r.qualify ns (n.relativeTo ns) = .ok (if n.SpelledBare ns then .ofParts home n.simple else n) ∧
      (r.qualify ns (n.relativeTo ns) = .ok n ↔ (n.SpelledBare ns → n.ns = home)) := by
  intro home
  have hdotted : r.qualify ns (n.ns ++ "." ++ n.simple) = .ok n := by
    rw [qualify_dotted r ns (by simp), parse_dotted hparams hdot]
  have hshort : r.qualify ns (n.relativeTo ns) = .ok (if n.SpelledBare ns then .ofParts home n.simple else n) := by
    rw [relativeTo_eq]
    split_ifs
    · exact qualify_bare himports ns hdot
    · exact hdotted
  refine ⟨hdotted, hshort, ?_⟩
  rw [hshort, Except.ok.injEq]
  by_cases hbare : n.SpelledBare ns
  · rw [if_pos hbare, ofParts_eq_iff hparams]
    exact ⟨fun h _ => h, fun h => h hbare⟩
  · rw [if_neg hbare]
    exact ⟨fun _ h => absurd h hbare, fun _ => rfl⟩

/-- A type that shares its simple name with a built-in is read back from another namespace. -/
theorem qualify_relativeTo_other_namespace :
    let n := ofParts "com.other" "String"
    n.params = [] ∧ '.' ∉ n.simple.toList ∧ n.relativeTo "com.acme" = "com.other.String" ∧
      ({} : Registry).qualify "com.acme" (n.relativeTo "com.acme") = .ok n := by
  intro n
  have hdot : '.' ∉ n.simple.toList := by decide
  obtain ⟨-, -, hback⟩ := qualify_relativeTo {} rfl "com.acme" n rfl hdot
  exact ⟨rfl, hdot, by decide, hback.2 (by decide)⟩

/-- Inside its own namespace such a type is spelled as the built-in and read as the built-in. A type of the
empty namespace is read as one of the namespace around it, and so is a name of the built-ins' namespace that
is no scalar. -/
theorem qualify_relativeTo_shadowed :
    let reread (n : QualifiedName) := ({} : Registry).qualify "com.acme" (n.relativeTo "com.acme")
    let text := ofParts "com.acme" "String"
    let money := ofParts "" "Money"
    let array := ofParts builtinNamespace "Array"
    text.params = [] ∧ text.simple ≠ "" ∧ '.' ∉ text.simple.toList ∧ text.relativeTo "com.acme" = "String" ∧
      reread text = .ok (ofParts builtinNamespace "String") ∧ reread text ≠ .ok text ∧
      reread money = .ok (ofParts "com.acme" "Money") ∧ reread array = .ok (ofParts "com.acme" "Array") := by
  intro reread text money array
  have hread (n : QualifiedName) (hdot : '.' ∉ (n.relativeTo "com.acme").toList) :=
    qualify_bare (r := {}) rfl "com.acme" hdot
  have htext : reread text = .ok (ofParts builtinNamespace "String") :=
    (hread text (by decide)).trans (congrArg _ (by decide))
  have hmoney : reread money = .ok (ofParts "com.acme" "Money") :=
    (hread money (by decide)).trans (congrArg _ (by decide))
  have harray : reread array = .ok (ofParts "com.acme" "Array") :=
    (hread array (by decide)).trans (congrArg _ (by decide))
  refine ⟨rfl, by decide, by decide, by decide, htext, ?_, hmoney, harray⟩
  rw [htext]
  exact fun h => absurd (Except.ok.inj h) (by decide)

end Registry

end SemanticSchema
