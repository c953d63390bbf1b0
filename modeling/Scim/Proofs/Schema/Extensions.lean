import Scim.Proofs.Schema.Respelling

/-! Extensions in any order. Where URNs are distinct, the order of the extensions has no part in
what paths denote. One more extension takes no path from the schemas that are there, and can only
make a path without URN ambiguous that led into another extension. -/
namespace Scim

/-- Of items with distinct names the one that is found does not depend on their order. -/
theorem Caseless.find?_perm {α : Type} (name : α → String) {items others : List α}
    (distinct : (items.map name).Pairwise fun a b => ¬ Caseless a b)
    (reordered : items.Perm others) (key : String) :
    items.find? (fun item => decide (Caseless (name item) key)) =
      others.find? fun item => decide (Caseless (name item) key) := by
  cases found : items.find? fun item => decide (Caseless (name item) key) with
  | none =>
    have absent := List.find?_eq_none.mp found
    exact (List.find?_eq_none.mpr fun item member =>
      absent item (reordered.mem_iff.mpr member)).symm
  | some item =>
    have same : Caseless (name item) key := of_decide_eq_true (List.find?_some found :)
    have member : item ∈ others := reordered.mem_iff.mp (List.mem_of_find?_eq_some found)
    have apart : (others.map name).Pairwise fun a b => ¬ Caseless a b :=
      distinct.perm (reordered.map name) fun different reverse => different reverse.symm
    simp only [← same.congr_right]
    exact (find?_of_mem name apart member).symm

namespace ResourceType

/-- A path denotes the same in both resource types, under the same names. -/
structure ResolvesAlike (type other : ResourceType) (path : Path) : Prop where
  lookup : other.lookup path = type.lookup path
  attribute? : other.attribute? path = type.attribute? path
  correctCase : other.correctCase path = type.correctCase path
  resolve : other.resolve path = type.resolve path

/-- Resource types of one core schema in which every URN and every path leads to the same. -/
structure Agrees (type other : ResourceType) : Prop where
  core : other.core = type.core
  extension? : other.extension? = type.extension?
  lookup : other.lookup = type.lookup

variable {type other : ResourceType} {path : Path} {found : Resolution} {schema : Schema}

/-- Of the resource type the names of what a path denotes need the core schema only. -/
theorem resolvesAlike_of_lookup (core : other.core = type.core)
    (looked : other.lookup path = type.lookup path) : type.ResolvesAlike other path := by
  have describe : other.describe = type.describe := by
    unfold describe fullPath urn?
    rw [core]
  have respell : other.respell = type.respell := by
    unfold ResourceType.respell canonicalUrn
    rw [core]
  constructor
  · exact looked
  · rw [ResourceType.attribute?, ResourceType.attribute?, looked, describe]
  · rw [ResourceType.correctCase, ResourceType.correctCase, looked, respell]
  · rw [ResourceType.resolve, ResourceType.resolve, looked, describe, respell]

namespace Agrees

theorem schema? (agrees : type.Agrees other) : other.schema? = type.schema? := by
  unfold ResourceType.schema?
  rw [agrees.core, agrees.extension?]

theorem resolvesAlike (agrees : type.Agrees other) (path : Path) : type.ResolvesAlike other path :=
  resolvesAlike_of_lookup agrees.core (congrFun agrees.lookup path)

theorem resolve (agrees : type.Agrees other) : other.resolve = type.resolve :=
  funext fun path => (agrees.resolvesAlike path).resolve

end Agrees

section

variable {others : List Schema}

theorem extensionMatches_perm (reordered : type.extensions.Perm others) (names : List String) :
    (type.extensionMatches names).Perm ((ResourceType.mk type.core others).extensionMatches names) :=
  reordered.filterMap _

theorem extension?_perm (distinct : type.Distinct) (reordered : type.extensions.Perm others) :
    (ResourceType.mk type.core others).extension? = type.extension? := by
  funext urn
  exact (Caseless.find?_perm Schema.id (List.pairwise_cons.mp distinct).2 reordered urn).symm

/-- A path without URN leads into an extension where exactly one has its names. -/
theorem lookupUnqualified_perm (reordered : type.extensions.Perm others) :
    (ResourceType.mk type.core others).lookupUnqualified = type.lookupUnqualified := by
  funext names
  have matched := extensionMatches_perm reordered names
  unfold lookupUnqualified
  cases walk commonAttributes names with
  | some chain => rfl
  | none =>
    cases walk type.core.attributes names with
    | some chain => rfl
    | none =>
      generalize type.extensionMatches names = before,
        (ResourceType.mk type.core others).extensionMatches names = after at matched
      cases before with
      | nil => rw [List.nil_perm.mp matched]
      | cons found more =>
        cases more with
        | nil => rw [List.singleton_perm.mp matched]
        | cons second rest =>
          match after, matched.length_eq with
          | _ :: _ :: _, _ => rfl

theorem agrees_perm (distinct : type.Distinct) (reordered : type.extensions.Perm others) :
    type.Agrees ⟨type.core, others⟩ := by
  have extension? := extension?_perm distinct reordered
  have unqualified := lookupUnqualified_perm reordered
  refine ⟨rfl, extension?, ?_⟩
  funext path
  unfold lookup lookupQualified
  rw [extension?, unqualified]

end

theorem extension?_attach {urn : String}
    (known : ∃ attached ∈ type.extensions, Caseless attached.id urn) :
    (type.attach schema).extension? urn = type.extension? urn := by
  obtain ⟨attached, member, own⟩ := known
  have isSome : (type.extension? urn).isSome :=
    List.find?_isSome.mpr ⟨attached, member, decide_eq_true own⟩
  obtain ⟨first, extension⟩ := Option.isSome_iff_exists.mp isSome
  rw [extension?] at extension ⊢
  rw [attach, List.find?_append, extension, Option.some_or, ← extension, extension?]

/-- What the URN of a schema qualifies is looked up there alone. -/
theorem lookupQualified_attach {urn : String} (known : ∃ id ∈ type.ids, Caseless id urn)
    (names : List String) :
    (type.attach schema).lookupQualified urn names = type.lookupQualified urn names := by
  by_cases core : Caseless type.core.id urn
  · simp only [lookupQualified, attach, core, if_true]
  · obtain ⟨id, member, own⟩ := known
    rcases List.mem_cons.mp member with rfl | member
    · exact absurd own core
    · obtain ⟨attached, among, rfl⟩ := List.mem_map.mp member
      rw [lookupQualified, lookupQualified, extension?_attach ⟨attached, among, own⟩]
      rfl

theorem lookup_attach_of_qualified {urn : String} (qualified : path.schema = some urn)
    (known : ∃ id ∈ type.ids, Caseless id urn) :
    (type.attach schema).lookup path = type.lookup path := by
  simp only [lookup, qualified, lookupQualified_attach known]

/-- What resolves is unqualified or has the URN of a schema. -/
theorem exists_id_of_lookup {urn : String} (looked : type.lookup path = some found)
    (qualified : path.schema = some urn) : ∃ id ∈ type.ids, Caseless id urn := by
  rcases qualifier_cases looked qualified with ⟨_, core⟩ | ⟨attached, owned, own⟩
  · exact ⟨_, List.mem_cons_self, core⟩
  · refine ⟨attached.id, urn?_mem looked _ ?_, own⟩
    cases owner : found.owner <;> simp_all [Owner.extension?, urn?]

theorem extensionMatches_attach (type : ResourceType) (schema : Schema) (names : List String) :
    (type.attach schema).extensionMatches names = type.extensionMatches names ++
      ((walk schema.attributes names).map (⟨·, .extension schema⟩)).toList := by
  rw [extensionMatches, extensionMatches, attach, List.filterMap_append]
  cases walked : walk schema.attributes names <;> simp [walked]

/-- Without URN, what was found in an extension is lost if the new one has the names as well. -/
theorem lookupUnqualified_attach {names : List String}
    (looked : type.lookupUnqualified names = some found) :
    (type.attach schema).lookupUnqualified names =
      if found.owner.extension? ≠ none ∧ walk schema.attributes names ≠ none then none
      else some found := by
  rw [lookupUnqualified] at looked ⊢
  rw [extensionMatches_attach]
  cases common : walk commonAttributes names with
  | some chain =>
    rw [common] at looked
    cases looked
    simp [Owner.extension?]
  | none =>
    cases core : walk type.core.attributes names with
    | some chain =>
      rw [common, core] at looked
      cases looked
      simp [attach, core, Owner.extension?]
    | none =>
      rw [common, core] at looked
      dsimp only at looked
      split at looked
      next only matched =>
        cases looked
        obtain ⟨attached, _, owner, _⟩ :=
          mem_extensionMatches (matched ▸ List.mem_singleton_self found)
        cases walked : walk schema.attributes names with
        | none => simp [attach, core, matched]
        | some chain => simp [attach, core, matched, owner, Owner.extension?]
      next => cases looked

/-- Another extension changes what a path without URN denotes only by having its names. -/
theorem lookup_attach (looked : type.lookup path = some found) :
    (type.attach schema).lookup path =
      if path.schema = none ∧ found.owner.extension? ≠ none ∧
        walk schema.attributes path.names ≠ none then none else some found := by
  cases qualifier : path.schema with
  | some urn =>
    rw [lookup_attach_of_qualified qualifier (exists_id_of_lookup looked qualifier), looked]
    simp
  | none =>
    have nonempty := (lookup_cases looked).1
    simp only [lookup, qualifier, nonempty, Bool.false_eq_true, if_false] at looked ⊢
    rw [lookupUnqualified_attach looked]
    simp

end ResourceType
end Scim
