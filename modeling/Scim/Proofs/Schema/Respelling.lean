import Mathlib.Data.List.Forall2
import Scim.Schema.Resolution

/-! Resolution does not see the case of names. The canonical spelling of a path resolves to the
same definitions and owner, and so does what it leads through on the way. -/
namespace Scim

theorem findAttribute?_congr (attributes : List Attribute) {a b : String} (same : Caseless a b) :
    findAttribute? attributes a = findAttribute? attributes b := by
  simp only [findAttribute?, same.congr_right]

theorem findAttribute?_name {attributes : List Attribute} {name : String} {definition : Attribute}
    (found : findAttribute? attributes name = some definition) : Caseless definition.name name :=
  of_decide_eq_true (List.find?_some found :)

/-- The names of the definitions are those of the path, in another case. -/
theorem walk_caseless {attributes : List Attribute} {names : List String}
    {chain : List Attribute} (found : walk attributes names = some chain) :
    List.Forall₂ Caseless (chain.map (·.name)) names := by
  induction names generalizing attributes chain with
  | nil =>
    cases found
    exact .nil
  | cons name names ih =>
    simp only [walk] at found
    split at found
    next definition atName =>
      obtain ⟨rest, walked, rfl⟩ := Option.map_eq_some_iff.mp found
      exact .cons (findAttribute?_name atName) (ih walked)
    next => cases found

theorem walk_congr (attributes : List Attribute) {names others : List String}
    (same : List.Forall₂ Caseless names others) : walk attributes names = walk attributes others := by
  induction same generalizing attributes with
  | nil => rfl
  | cons head _ ih => simp only [walk, findAttribute?_congr _ head, ih]

theorem walk_respelled {attributes : List Attribute} {names : List String}
    {chain : List Attribute} (found : walk attributes names = some chain) :
    walk attributes (chain.map (·.name)) = some chain :=
  (walk_congr attributes (walk_caseless found)).trans found

/-- Where one walk through the names fails, so does one through their respelling. -/
theorem walk_respelled_eq_none {attributes others : List Attribute} {names : List String}
    {chain : List Attribute} (found : walk attributes names = some chain)
    (missing : walk others names = none) : walk others (chain.map (·.name)) = none :=
  (walk_congr others (walk_caseless found)).trans missing

theorem walk_take {attributes : List Attribute} {names : List String} {chain : List Attribute}
    (found : walk attributes names = some chain) (count : Nat) :
    walk attributes (names.take count) = some (chain.take count) := by
  induction names generalizing attributes chain count with
  | nil =>
    cases found
    simp [walk]
  | cons name names ih =>
    simp only [walk] at found
    split at found
    next definition atName =>
      obtain ⟨rest, walked, rfl⟩ := Option.map_eq_some_iff.mp found
      cases count with
      | zero => rfl
      | succ count => simp [walk, atName, ih walked count]
    next => cases found

theorem walk_dropLast {attributes : List Attribute} {names : List String} {chain : List Attribute}
    (found : walk attributes names = some chain) :
    walk attributes names.dropLast = some chain.dropLast := by
  rw [List.dropLast_eq_take, List.dropLast_eq_take, walk_length found]
  exact walk_take found _

def Owner.extension? : Owner → Option Schema
  | .extension schema => some schema
  | _ => none

namespace ResourceType

variable {type : ResourceType} {path : Path} {found : Resolution}

theorem not_caseless_core (distinct : type.Distinct) {schema : Schema}
    (member : schema ∈ type.extensions) : ¬ Caseless type.core.id schema.id :=
  (List.pairwise_cons.mp distinct).1 _ (List.mem_map_of_mem member)

theorem extension?_self (distinct : type.Distinct) {schema : Schema}
    (member : schema ∈ type.extensions) : type.extension? schema.id = some schema :=
  Caseless.find?_of_mem Schema.id (List.pairwise_cons.mp distinct).2 member

theorem extension?_core (distinct : type.Distinct) : type.extension? type.core.id = none := by
  apply List.find?_eq_none.mpr
  intro schema member same
  exact not_caseless_core distinct member (of_decide_eq_true same).symm

/-- Where the definitions of a resolution come from. -/
def Holds (type : ResourceType) : Owner → List Attribute → Prop
  | .common, attributes => attributes = commonAttributes
  | .core, attributes => attributes = type.core.attributes
  | .extension schema, attributes => schema ∈ type.extensions ∧ attributes = schema.attributes

theorem mem_extensionMatches {names : List String}
    (matched : found ∈ type.extensionMatches names) :
    ∃ schema ∈ type.extensions, found.owner = .extension schema ∧
      walk schema.attributes names = some found.chain := by
  obtain ⟨schema, member, within⟩ := List.mem_filterMap.mp matched
  obtain ⟨chain, walked, rfl⟩ := Option.map_eq_some_iff.mp within
  exact ⟨schema, member, rfl, walked⟩

/-- What a lookup finds is a walk through the attributes of the owner, and tells which owners
were passed over. -/
theorem lookup_cases (looked : type.lookup path = some found) :
    path.isRoot = false ∧
    ((found.owner = .common ∧ walk commonAttributes path.names = some found.chain) ∨
     (found.owner = .core ∧ walk type.core.attributes path.names = some found.chain ∧
       (path.schema = none → walk commonAttributes path.names = none)) ∨
     (∃ schema ∈ type.extensions, found.owner = .extension schema ∧
       walk schema.attributes path.names = some found.chain)) := by
  simp only [lookup] at looked
  split at looked
  · cases looked
  next nonempty =>
    refine ⟨by simpa using nonempty, ?_⟩
    split at looked
    next urn qualified =>
      simp only [lookupQualified] at looked
      split at looked
      · split at looked
        next chain walked =>
          cases looked
          exact .inr (.inl ⟨rfl, walked, by simp [qualified]⟩)
        next =>
          obtain ⟨chain, walked, rfl⟩ := Option.map_eq_some_iff.mp looked
          exact .inl ⟨rfl, walked⟩
      · obtain ⟨schema, atUrn, within⟩ := Option.bind_eq_some_iff.mp looked
        obtain ⟨chain, walked, rfl⟩ := Option.map_eq_some_iff.mp within
        exact .inr (.inr ⟨schema, List.mem_of_find?_eq_some atUrn, rfl, walked⟩)
    next unqualified =>
      simp only [lookupUnqualified] at looked
      split at looked
      next chain walked =>
        cases looked
        exact .inl ⟨rfl, walked⟩
      next missing =>
        split at looked
        next chain walked =>
          cases looked
          exact .inr (.inl ⟨rfl, walked, fun _ => missing⟩)
        next =>
          split at looked
          next only one =>
            cases looked
            exact .inr (.inr (mem_extensionMatches (one ▸ List.mem_singleton_self _)))
          next => cases looked

/-- The URN of a path is that of the extension that owns its attribute, or else of the core. -/
theorem qualifier_cases (looked : type.lookup path = some found) {urn : String}
    (qualified : path.schema = some urn) :
    found.owner.extension? = none ∧ Caseless type.core.id urn ∨
      ∃ schema, found.owner.extension? = some schema ∧ Caseless schema.id urn := by
  simp only [lookup] at looked
  split at looked
  · cases looked
  · rw [qualified] at looked
    simp only [lookupQualified] at looked
    split at looked
    next core =>
      split at looked
      · cases looked
        exact .inl ⟨rfl, core⟩
      · obtain ⟨chain, _, rfl⟩ := Option.map_eq_some_iff.mp looked
        exact .inl ⟨rfl, core⟩
    next =>
      obtain ⟨schema, atUrn, within⟩ := Option.bind_eq_some_iff.mp looked
      obtain ⟨chain, _, rfl⟩ := Option.map_eq_some_iff.mp within
      exact .inr ⟨schema, rfl, of_decide_eq_true (List.find?_some atUrn :)⟩

theorem chain_length (looked : type.lookup path = some found) :
    found.chain.length = path.segments.length := by
  have names : path.names.length = path.segments.length := List.length_map ..
  rcases (lookup_cases looked).2 with ⟨_, walked⟩ | ⟨_, walked, _⟩ | ⟨_, _, _, walked⟩ <;>
    rw [walk_length walked, names]

/-- The names of the definitions are those of the path, in another case. -/
theorem chain_caseless (looked : type.lookup path = some found) :
    List.Forall₂ Caseless (found.chain.map (·.name)) path.names := by
  rcases (lookup_cases looked).2 with ⟨_, walked⟩ | ⟨_, walked, _⟩ | ⟨_, _, _, walked⟩ <;>
    exact walk_caseless walked

theorem names_zipWith {respelled : Segment → Attribute → Segment}
    (renamed : ∀ segment definition, (respelled segment definition).name = definition.name) :
    ∀ (segments : List Segment) (chain : List Attribute), chain.length = segments.length →
      (List.zipWith respelled segments chain).map (·.name) = chain.map (·.name)
  | [], [], _ => rfl
  | segment :: segments, definition :: chain, same => by
    simp only [List.zipWith_cons_cons, List.map_cons, renamed]
    rw [names_zipWith renamed segments chain (by simpa using same)]

theorem names_respell (looked : type.lookup path = some found) :
    (type.respell found path).names = found.chain.map (·.name) :=
  names_zipWith (fun _ _ => rfl) _ _ (chain_length looked)

theorem isRoot_respell (looked : type.lookup path = some found) :
    (type.respell found path).isRoot = false := by
  have nonempty := (lookup_cases looked).1
  have same := chain_length looked
  simp only [Path.isRoot, List.isEmpty_eq_false_iff] at nonempty ⊢
  simp only [respell, ne_eq, ← List.length_eq_zero_iff, List.length_zipWith, same] at nonempty ⊢
  simpa using nonempty

/-- The lookup of names within the schema that a canonical URN names. The names need not be all
of those that were resolved, so common attributes may be found where the core was meant. -/
theorem lookup_canonical (distinct : type.Distinct) (owner : Owner) (given : Option String)
    (attributes : List Attribute) (held : type.Holds owner attributes) (names : List String)
    (chain : List Attribute) (walked : walk attributes names = some chain) (segments : List Segment)
    (named : segments.map (·.name) = names) (nonempty : segments ≠ []) :
    type.lookup ⟨type.canonicalUrn owner given, segments⟩ = some ⟨chain, owner⟩ ∨
      (owner = .core ∧ given = none ∧ ∃ others, walk commonAttributes names = some others ∧
        type.lookup ⟨type.canonicalUrn owner given, segments⟩ = some ⟨others, .common⟩) := by
  subst named
  have notRoot : segments.isEmpty = false := by simpa using nonempty
  cases owner with
  | common =>
    cases held
    exact .inl (by simp [lookup, Path.isRoot, notRoot, canonicalUrn, lookupUnqualified, Path.names, walked])
  | core =>
    cases held
    cases given with
    | some urn =>
      exact .inl (by simp [lookup, Path.isRoot, notRoot, canonicalUrn, lookupQualified,
        Caseless.refl, Path.names, walked])
    | none =>
      cases common : walk commonAttributes (segments.map (·.name)) with
      | some others =>
        exact .inr ⟨rfl, rfl, others, rfl, by simp [lookup, Path.isRoot, notRoot, canonicalUrn,
          lookupUnqualified, Path.names, common]⟩
      | none =>
        exact .inl (by simp [lookup, Path.isRoot, notRoot, canonicalUrn, lookupUnqualified,
          Path.names, common, walked])
  | extension schema =>
    obtain ⟨member, rfl⟩ := held
    exact .inl (by simp [lookup, Path.isRoot, notRoot, canonicalUrn, lookupQualified,
      not_caseless_core distinct member, extension?_self distinct member, Path.names, walked])

theorem lookup_holds (looked : type.lookup path = some found) :
    ∃ attributes, type.Holds found.owner attributes ∧
      walk attributes path.names = some found.chain := by
  rcases (lookup_cases looked).2 with ⟨owner, walked⟩ | ⟨owner, walked, _⟩ |
    ⟨schema, member, owner, walked⟩
  · exact ⟨_, by rw [owner]; rfl, walked⟩
  · exact ⟨_, by rw [owner]; rfl, walked⟩
  · exact ⟨_, by rw [owner]; exact ⟨member, rfl⟩, walked⟩

/-- The canonical spelling of a path resolves as the path does. -/
theorem lookup_respell (distinct : type.Distinct) (looked : type.lookup path = some found) :
    type.lookup (type.respell found path) = some found := by
  obtain ⟨attributes, held, walked⟩ := lookup_holds looked
  have nonempty : (type.respell found path).segments ≠ [] := by
    simpa [Path.isRoot] using isRoot_respell looked
  rcases lookup_canonical distinct found.owner path.schema attributes held _ _
      (walk_respelled walked) (type.respell found path).segments (names_respell looked) nonempty with
    same | ⟨owner, unqualified, others, common, _⟩
  · exact same
  · -- a core attribute without URN is found only where no common one has its names
    rcases (lookup_cases looked).2 with ⟨other, _⟩ | ⟨_, _, passed⟩ | ⟨_, _, other, _⟩
    · rw [owner] at other; cases other
    · have missing := walk_respelled_eq_none walked (passed unqualified)
      rw [missing] at common
      cases common
    · rw [owner] at other; cases other

/-- Where an extension owns the attribute, no other schema of its URN has one of these names. -/
theorem passed_of_extension {schema : Schema} (looked : type.lookup path = some found)
    (owned : found.owner = .extension schema) :
    (Caseless type.core.id schema.id →
      walk type.core.attributes path.names = none ∧ walk commonAttributes path.names = none) ∧
    ∀ {other : Schema} {chain : List Attribute}, type.extension? schema.id = some other →
      walk other.attributes path.names = some chain → found = ⟨chain, .extension other⟩ := by
  simp only [lookup, (lookup_cases looked).1, Bool.false_eq_true, if_false] at looked
  split at looked
  next urn qualified =>
    unfold lookupQualified at looked
    split at looked
    · split at looked
      · cases looked
        cases owned
      · obtain ⟨_, _, rfl⟩ := Option.map_eq_some_iff.mp looked
        cases owned
    next foreign =>
      obtain ⟨_, atUrn, within⟩ := Option.bind_eq_some_iff.mp looked
      obtain ⟨_, walked, rfl⟩ := Option.map_eq_some_iff.mp within
      cases owned
      have same : Caseless schema.id urn := of_decide_eq_true (List.find?_some atUrn :)
      have own : type.extension? schema.id = some schema := by
        rw [extension?] at atUrn ⊢
        simpa only [same.congr_right] using atUrn
      refine ⟨fun core => absurd (core.trans same) foreign, fun named within => ?_⟩
      rw [own] at named
      cases named
      rw [walked] at within
      cases within
      rfl
  next unqualified =>
    unfold lookupUnqualified at looked
    split at looked
    · cases looked
      cases owned
    next common =>
      split at looked
      · cases looked
        cases owned
      next core =>
        split at looked
        next single one =>
          cases looked
          refine ⟨fun _ => ⟨core, common⟩, fun {other chain} named within => ?_⟩
          have matched : ⟨chain, .extension other⟩ ∈ type.extensionMatches path.names :=
            List.mem_filterMap.mpr ⟨other, List.mem_of_find?_eq_some named, by rw [within]; rfl⟩
          rw [one] at matched
          exact (List.mem_singleton.mp matched).symm
        next => cases looked

/-- Even where URNs are not distinct, the canonical spelling resolves to nothing but what the path
resolves to. -/
theorem eq_of_lookup_respell {other : Resolution} (looked : type.lookup path = some found)
    (again : type.lookup (type.respell found path) = some other) : other = found := by
  have same := chain_caseless looked
  simp only [lookup, isRoot_respell looked, Bool.false_eq_true, if_false, names_respell looked,
    show (type.respell found path).schema = type.canonicalUrn found.owner path.schema from rfl] at again
  rcases (lookup_cases looked).2 with ⟨owner, walked⟩ | ⟨owner, walked, passed⟩ |
    ⟨schema, member, owner, walked⟩
  · simp only [owner, canonicalUrn, lookupUnqualified, walk_respelled walked] at again
    rw [← Option.some.inj again, ← owner]
  · cases given : path.schema with
    | some urn =>
      simp only [owner, given, canonicalUrn, Option.map_some, lookupQualified, Caseless.refl, if_true,
        walk_respelled walked] at again
      rw [← Option.some.inj again, ← owner]
    | none =>
      simp only [owner, given, canonicalUrn, Option.map_none, lookupUnqualified,
        walk_respelled_eq_none walked (passed given), walk_respelled walked] at again
      rw [← Option.some.inj again, ← owner]
  · obtain ⟨core, alone⟩ := passed_of_extension looked owner
    simp only [owner, canonicalUrn, lookupQualified, walk_congr _ same] at again
    split at again
    next taken =>
      simp only [(core taken).1, (core taken).2, Option.map_none, reduceCtorEq] at again
    next =>
      obtain ⟨named, atUrn, within⟩ := Option.bind_eq_some_iff.mp again
      obtain ⟨chain, walkedThere, rfl⟩ := Option.map_eq_some_iff.mp within
      exact (alone atUrn walkedThere).symm

/-- The extension that a canonical URN names is the owner. -/
theorem extension?_canonicalUrn (distinct : type.Distinct) (looked : type.lookup path = some found) :
    (type.respell found path).schema.bind type.extension? = found.owner.extension? := by
  obtain ⟨attributes, held, _⟩ := lookup_holds looked
  rw [respell]
  cases owner : found.owner with
  | common => rfl
  | core =>
    cases given : path.schema with
    | none => rfl
    | some urn => simp [canonicalUrn, Owner.extension?, extension?_core distinct]
  | extension schema =>
    rw [owner] at held
    simp [canonicalUrn, Owner.extension?, extension?_self distinct held.1]

theorem canonicalUrn_again (type : ResourceType) (owner : Owner) (given : Option String) :
    type.canonicalUrn owner (type.canonicalUrn owner given) = type.canonicalUrn owner given := by
  cases owner with
  | common | extension => rfl
  | core => cases given <;> rfl

theorem canonicalUrn_cases (type : ResourceType) (owner : Owner) (given : Option String) :
    type.canonicalUrn owner given = none ∨ type.canonicalUrn owner given = type.urn? owner := by
  cases owner with
  | common => exact .inl rfl
  | core => cases given <;> simp [canonicalUrn, urn?]
  | extension schema => exact .inr rfl

theorem urn?_mem (looked : type.lookup path = some found) :
    ∀ urn ∈ type.urn? found.owner, urn ∈ type.ids := by
  obtain ⟨attributes, held, _⟩ := lookup_holds looked
  intro urn member
  cases owner : found.owner with
  | common => rw [owner] at member; cases member
  | core =>
    rw [owner] at member
    cases member
    exact List.mem_cons_self
  | extension schema =>
    rw [owner] at member held
    cases member
    exact List.mem_cons_of_mem _ (List.mem_map_of_mem held.1)

theorem canonicalUrn_mem (looked : type.lookup path = some found) :
    ∀ urn ∈ type.canonicalUrn found.owner path.schema, urn ∈ type.ids := by
  intro urn member
  rcases type.canonicalUrn_cases found.owner path.schema with unqualified | own
  · rw [unqualified] at member
    cases member
  · exact urn?_mem looked urn (own ▸ member)

end ResourceType

def staffType : ResourceType where
  core := { id := "urn:core:User", attributes := [
    { name := "name", type := .complex, subAttributes := [{ name := "givenName" }] },
    { name := "emails", type := .complex, multiValued := true, subAttributes := [
      { name := "type" }, { name := "labels", multiValued := true }] }] }
  extensions := [{ id := "urn:ext:Work", attributes := [{ name := "department" }] }]

theorem staffType_distinct : staffType.Distinct := by
  simp only [ResourceType.Distinct]
  decide

end Scim
