import Scim.Proofs.Resource.Descent

/-! The definitions on the way to an attribute. Navigation looks up the path to the containers anew,
from the start. What it finds are the definitions that lead to the attribute, unless common
attributes stand in front of those of the core schema. -/
namespace Scim

namespace Resource

/-- The places that a path leads to along given definitions, none of which is looked up. -/
def containersAlong (type : ResourceType) (create : Bool) (base : Path) (chain : List Attribute)
    (resource : Resource) : Outcome PatchError Focus :=
  let home := resource.home type create base.schema
  if home.fault.isSome || home.value.targets.isEmpty then home
  else home.value.follow create base.render (base.segments.zip chain)

theorem containers_eq_along {type : ResourceType} {base : Path} {found : Resolution}
    (looked : type.lookup base = some found) (create : Bool) (resource : Resource) :
    resource.containers type create base =
      resource.containersAlong type create base found.chain := by
  have below : base.isRoot = false := (ResourceType.lookup_cases looked).1
  simp only [containers, containersAlong, looked, below, Bool.or_false]

end Resource

namespace ResourceType

variable {type : ResourceType} {path canonical : Path} {resolved : ResolvedAttribute}

/-- **Navigation uses the definitions that resolution found.** A path with several segments that
resolves parts into its last segment and a path to the containers. Looked up by itself this leads
through the definitions ahead of the attribute's own, of the same owner, just if no common attributes
stand in front of them. Then the containers are those found along these definitions, which decide
what is created and how filters on the way compare. -/
theorem lookup_parent_iff (distinct : type.Distinct)
    (resolves : type.resolve path = some (canonical, resolved))
    (nested : 2 ≤ path.segments.length) :
    ∃ found base last, type.lookup path = some found ∧ canonical.split? = some (base, last) ∧
      (type.lookup base = some found.parent ↔ ¬ found.Overshadowed path) ∧
      (¬ found.Overshadowed path → ∀ (create : Bool) (resource : Resource),
        resource.containers type create base =
          resource.containersAlong type create base found.parent.chain) := by
  obtain ⟨found, looked, described⟩ := Option.bind_eq_some_iff.mp resolves
  obtain ⟨_, _, same⟩ := Option.map_eq_some_iff.mp described
  cases same
  obtain ⟨base, last, split, parts, schema⟩ := respell_parts looked
  have below : base.isRoot = false := by
    have length := (names_base looked parts).length_eq
    simp only [Path.names, List.length_dropLast, List.length_map] at length
    rw [Path.isRoot, List.isEmpty_eq_false_iff, ← List.length_pos_iff]
    omega
  have leads := lookup_base_iff looked parts schema below distinct
  exact ⟨found, base, last, looked, split, leads, fun clear create resource =>
    Resource.containers_eq_along (leads.mpr clear) create resource⟩

def contactType : ResourceType where
  core := { id := "urn:core:Contact", attributes := [
    { name := "externalId", type := .complex, subAttributes := [{ name := "system" }] }] }
  extensions := []

theorem contactType_distinct : contactType.Distinct := by
  simp only [Distinct]
  decide

def externalSystem (schema : Option String) : Path :=
  ⟨schema, [⟨"ExternalID", none⟩, ⟨"System", none⟩]⟩

/-- Under the URN of the core schema its own identifier is found, although there is a common one, and
navigation follows it. -/
theorem externalSystem_found : ∃ found base last,
    contactType.lookup (externalSystem (some "URN:core:contact")) = some found ∧
      (contactType.respell found (externalSystem (some "URN:core:contact"))).split? =
        some (base, last) ∧
      contactType.lookup base = some found.parent ∧ found.parent.chain.map (·.isComplex) = [true] ∧
      (Resource.mk []).containers contactType true base =
        (Resource.mk []).containersAlong contactType true base found.parent.chain := by
  have resolves : contactType.resolve (externalSystem (some "URN:core:contact")) = some
      (⟨some "urn:core:Contact", [⟨"externalId", none⟩, ⟨"system", none⟩]⟩,
        ⟨{ name := "system" }, "urn:core:Contact:externalId.system",
          some "urn:core:Contact"⟩) := rfl
  obtain ⟨found, base, last, looked, split, leads, follows⟩ :=
    lookup_parent_iff contactType_distinct resolves (by decide)
  have clear : ¬ found.Overshadowed (externalSystem (some "URN:core:contact")) :=
    fun overshadowed => by cases overshadowed.unqualified
  refine ⟨found, base, last, looked, ?_, leads.mpr clear, ?_, follows clear true _⟩
  · cases Option.some.inj looked
    exact split
  · cases Option.some.inj looked
    rfl

def addExternalSystem (path : String) : Patch := ⟨"add", path, some (.string "hr")⟩

/-- Without the URN the path to the containers leads to the common identifier, which has no parts.
So it is not created, and what is added under the URN is lost. -/
theorem externalSystem_overshadowed :
    (∃ found base last, contactType.lookup (externalSystem none) = some found ∧
      (contactType.respell found (externalSystem none)).split? = some (base, last) ∧
      contactType.lookup base ≠ some found.parent) ∧
    (addExternalSystem "externalId.system").apply contactType {} ⟨[]⟩ = .done ⟨[]⟩ ∧
    (addExternalSystem "urn:core:Contact:externalId.system").apply contactType {} ⟨[]⟩ =
      .done ⟨[("externalId", .object [("system", .string "hr")])]⟩ :=
  ⟨⟨_, _, _, rfl, rfl, by decide⟩, by decide +kernel⟩

end ResourceType
end Scim
