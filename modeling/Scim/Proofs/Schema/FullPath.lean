import Scim.Proofs.Patch.Narrowing

/-! The full name of an attribute is a key for it. It can be read as a path and leads back to the
attribute, so no two attributes have the same full name. -/
namespace Scim

namespace ResourceType

variable {type : ResourceType} {path : Path} {found : Resolution} {resolved : ResolvedAttribute}
  {text : String}

def pathTo (type : ResourceType) (found : Resolution) : Path :=
  ⟨type.urn? found.owner, unfiltered (found.chain.map (·.name))⟩

theorem names_pathTo (type : ResourceType) (found : Resolution) :
    (type.pathTo found).names = found.chain.map (·.name) :=
  names_unfiltered ..

theorem render_pathTo (type : ResourceType) (found : Resolution) :
    (type.pathTo found).render = type.fullPath found := by
  have names : Path.segmentsChars (unfiltered (found.chain.map (·.name))) =
      (dotted (found.chain.map (·.name))).toList := by
    rw [segmentsChars_unfiltered, dotted, String.toList_intercalate]
    rfl
  unfold Path.render pathTo fullPath
  cases type.urn? found.owner with
  | none => rw [Path.chars, names, String.ofList_toList]
  | some urn =>
    rw [Path.chars, names]
    apply String.toList_injective
    simp

theorem pathTo_ne_nil (looked : type.lookup path = some found) :
    (type.pathTo found).segments ≠ [] := by
  obtain ⟨definition, target⟩ := exists_target looked
  intro empty
  have none : found.chain = [] := by simpa [pathTo, unfiltered] using empty
  rw [none] at target
  cases target

/-- Under the URN of its owner an attribute is found before any other of its name. -/
theorem lookup_pathTo (distinct : type.Distinct) (looked : type.lookup path = some found) :
    type.lookup (type.pathTo found) = some found := by
  obtain ⟨attributes, held, walked⟩ := lookup_holds looked
  have urn : type.canonicalUrn found.owner (some "") = type.urn? found.owner := by
    cases found.owner <;> rfl
  rcases lookup_canonical distinct found.owner (some "") attributes held _ _
      (walk_respelled walked) _ (names_pathTo type found) (pathTo_ne_nil looked) with
    same | ⟨_, unqualified, _⟩
  · rwa [urn] at same
  · cases unqualified

/-- A full name can be read where the path is one that was read. -/
theorem wellFormed_pathTo (spells : type.SpellsUrns) (parsed : Path.parse text = .ok path)
    (looked : type.lookup path = some found) : (type.pathTo found).WellFormed := by
  have plain : ∀ segment ∈ (type.pathTo found).segments, segment.filter = none := by
    simp [pathTo, unfiltered]
  have filters {holds : Filter → Prop} :
      ∀ segment ∈ (type.pathTo found).segments, ∀ filter ∈ segment.filter, holds filter := by
    intro segment member filter within
    rw [plain segment member] at within
    cases within
  refine .inr ⟨⟨pathTo_ne_nil looked, ?_, ?_, filters, ?_⟩, filters⟩
  · intro segment member
    have name : segment.name ∈ (type.pathTo found).names := List.mem_map_of_mem member
    rw [names_pathTo, ← names_respell looked] at name
    obtain ⟨respelled, among, same⟩ := List.mem_map.mp name
    have named := named_respell looked (isSpelled_of_parse parsed looked).named respelled among
    exact named.of_caseless (same ▸ Caseless.refl _)
  · rw [Path.filterCount, List.countP_eq_zero.mpr fun segment member => by simp [plain segment member]]
    exact Nat.zero_le 1
  · exact fun urn member => spells urn (urn?_mem looked urn member)

theorem fullPath_read (distinct : type.Distinct) (spells : type.SpellsUrns)
    (parsed : Path.parse text = .ok path) (looked : type.lookup path = some found) :
    Path.parse (type.fullPath found) = .ok (type.pathTo found) ∧
      type.lookup (type.pathTo found) = some found := by
  rw [← render_pathTo]
  exact ⟨Path.parse_render_of_wellFormed (wellFormed_pathTo spells parsed looked),
    lookup_pathTo distinct looked⟩

theorem attribute?_eq_some (attributed : type.attribute? path = some resolved) :
    ∃ found, type.lookup path = some found ∧ type.describe found = some resolved ∧
      resolved.fullPath = type.fullPath found := by
  obtain ⟨found, looked, described⟩ := Option.bind_eq_some_iff.mp attributed
  obtain ⟨definition, _, rfl⟩ := Option.map_eq_some_iff.mp described
  exact ⟨found, looked, described, rfl⟩

/-- **The full name is a key.** The full name of an attribute that a text leads to is accepted as a
path, which leads to the same attribute of the same owner. So texts that lead to attributes of one
full name lead to one attribute. -/
theorem fullPath_faithful (distinct : type.Distinct) (spells : type.SpellsUrns)
    (parsed : Path.parse text = .ok path) (attributed : type.attribute? path = some resolved) :
    (∃ again, Path.parse resolved.fullPath = .ok again ∧ type.attribute? again = some resolved ∧
      type.lookup again = type.lookup path) ∧
    ∀ (otherText : String) (other : Path) (otherResolved : ResolvedAttribute),
      Path.parse otherText = .ok other → type.attribute? other = some otherResolved →
      otherResolved.fullPath = resolved.fullPath →
      otherResolved = resolved ∧ type.lookup other = type.lookup path := by
  obtain ⟨found, looked, described, named⟩ := attribute?_eq_some attributed
  obtain ⟨reads, leads⟩ := fullPath_read distinct spells parsed looked
  refine ⟨⟨type.pathTo found, named ▸ reads, ?_, leads.trans looked.symm⟩, ?_⟩
  · rw [attribute?, leads, Option.bind_some, described]
  · intro otherText other otherResolved otherParsed otherAttributed same
    obtain ⟨otherFound, otherLooked, otherDescribed, otherNamed⟩ := attribute?_eq_some otherAttributed
    obtain ⟨otherReads, otherLeads⟩ := fullPath_read distinct spells otherParsed otherLooked
    -- the one name is read as one path only
    rw [← otherNamed, same, named, reads] at otherReads
    rw [← Except.ok.inj otherReads, leads] at otherLeads
    cases otherLeads
    rw [described] at otherDescribed
    exact ⟨(Option.some.inj otherDescribed).symm, otherLooked.trans looked.symm⟩

def accountType : ResourceType where
  core := { id := "urn:core:2.0:User", attributes := [{ name := "id", type := .integer }] }
  extensions := [{ id := "urn:ext:2.0:Work", attributes := [{ name := "id", type := .boolean }] }]

theorem accountType_fullPaths :
    ∃ again resolved, Path.parse "urn:core:2.0:User:id" = .ok again ∧
      accountType.attribute? again = some resolved ∧ resolved.definition.type = .integer := by
  have distinct : accountType.Distinct := by
    simp only [Distinct]
    decide
  have spells : accountType.SpellsUrns := by
    unfold SpellsUrns StartsUrn
    decide
  have parsed : Path.parse "URN:Core:2.0:user:ID" =
      .ok ⟨some "URN:Core:2.0:user", [⟨"ID", none⟩]⟩ := by decide +kernel
  have attributed : accountType.attribute? ⟨some "URN:Core:2.0:user", [⟨"ID", none⟩]⟩ =
      some ⟨{ name := "id", type := .integer }, "urn:core:2.0:User:id",
        some "urn:core:2.0:User"⟩ := by decide +kernel
  obtain ⟨⟨again, reads, leads, _⟩, _⟩ := fullPath_faithful distinct spells parsed attributed
  exact ⟨again, _, reads, leads, rfl⟩

end ResourceType
end Scim
