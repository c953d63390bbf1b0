import Scim.Patch.Apply
import Scim.Proofs.Schema.Parents

/-! Patches of a known kind whose path is given and resolves, and what applying them starts
from. -/
namespace Scim

/-- The patch has a path that spells `written`, which resolves. -/
structure Patch.LeadsTo (patch : Patch) (type : ResourceType) (written : Path)
    (found : Resolution) : Prop where
  nonempty : patch.path ≠ ""
  parsed : Path.parse patch.path = .ok written
  resolved : type.lookup written = some found

/-- The patch has a known operation besides. -/
structure Patch.Addresses (patch : Patch) (type : ResourceType) (kind : OpKind) (written : Path)
    (found : Resolution) : Prop extends patch.LeadsTo type written found where
  known : patch.kind? = some kind

theorem Patch.LeadsTo.addresses {patch other : Patch} {type : ResourceType} {kind : OpKind}
    {written : Path} {found : Resolution} (leads : patch.LeadsTo type written found)
    (same : other.path = patch.path) (known : other.kind? = some kind) :
    other.Addresses type kind written found where
  nonempty := same ▸ leads.nonempty
  parsed := same ▸ leads.parsed
  resolved := leads.resolved
  known := known

theorem OpKind.ofWord?_word (kind : OpKind) : ofWord? kind.word = some kind := by
  cases kind <;> decide

namespace ResourceType

theorem resolve_of_lookup {type : ResourceType} {path : Path} {found : Resolution}
    {definition : Attribute} (looked : type.lookup path = some found)
    (target : found.chain.getLast? = some definition) :
    type.resolve path = some (type.respell found path,
      ⟨definition, type.fullPath found, type.urn? found.owner⟩) := by
  simp [resolve, looked, describe, target]

theorem exists_target {type : ResourceType} {path : Path} {found : Resolution}
    (looked : type.lookup path = some found) :
    ∃ definition, found.chain.getLast? = some definition := by
  have nonempty := (lookup_cases looked).1
  have length := chain_length looked
  cases target : found.chain.getLast? with
  | some definition => exact ⟨definition, rfl⟩
  | none =>
    rw [List.getLast?_eq_none_iff.mp target] at length
    simp [Path.isRoot, List.length_eq_zero_iff.mp length.symm] at nonempty

/-- The last segment of a path that resolves stands by the last definition. -/
theorem exists_parts {type : ResourceType} {path : Path} {found : Resolution}
    {definition : Attribute} (looked : type.lookup path = some found)
    (target : found.chain.getLast? = some definition) :
    ∃ schema init last chain owner, path = ⟨schema, init ++ [last]⟩ ∧
      found = ⟨chain ++ [definition], owner⟩ ∧ init.length = chain.length := by
  obtain ⟨schema, segments⟩ := path
  obtain ⟨_, owner⟩ := found
  obtain ⟨chain, rfl⟩ := List.getLast?_eq_some_iff.mp target
  have length := chain_length looked
  cases parts : segments.reverse with
  | nil => simp [List.reverse_eq_nil_iff.mp parts] at length
  | cons last before =>
    have same : segments = before.reverse ++ [last] := by
      rw [← List.reverse_cons, ← parts, List.reverse_reverse]
    subst same
    refine ⟨schema, before.reverse, last, chain, owner, rfl, rfl, ?_⟩
    simpa using length.symm

end ResourceType

theorem Patch.LeadsTo.resolveText {patch : Patch} {type : ResourceType} {written : Path}
    {found : Resolution} {definition : Attribute} (leads : patch.LeadsTo type written found)
    (target : found.chain.getLast? = some definition) :
    type.resolveText patch.path = .ok (type.respell found written,
      ⟨definition, type.fullPath found, type.urn? found.owner⟩) := by
  simp [ResourceType.resolveText, leads.parsed,
    ResourceType.resolve_of_lookup leads.resolved target]

namespace Patch.Addresses

variable {patch : Patch} {type : ResourceType} {kind : OpKind} {written : Path}
  {found : Resolution} {definition : Attribute}

theorem apply_eq_applyAtPath (addressed : patch.Addresses type kind written found)
    (options : PatchOptions) (resource : Resource) :
    patch.apply type options resource = patch.applyAtPath type options kind resource := by
  have given : patch.path.isEmpty = false := by simpa using addressed.nonempty
  simp [Patch.apply, addressed.known, given]

/-- A patch that is no remove by value is applied at its path in canonical spelling. -/
theorem apply_of_kept (addressed : patch.Addresses type kind written found)
    (target : found.chain.getLast? = some definition) {options : PatchOptions}
    (kept : patch.removeByValueIf options.removeByValue (type.respell found written) definition =
      .ok none) (resource : Resource) :
    patch.apply type options resource = patch.applyResolved type options kind
      (type.respell found written) definition resource := by
  rw [addressed.apply_eq_applyAtPath, Patch.applyAtPath, addressed.resolveText target]
  simp only [kept]

end Patch.Addresses

def sampleType : ResourceType where
  core := { id := "urn:core:User", attributes := [
    { name := "userName" },
    { name := "emails", type := .complex, multiValued := true, subAttributes := [
      { name := "value" }, { name := "type" }] }] }
  extensions := [
    { id := "urn:ext:Work", attributes := [{ name := "badges", multiValued := true }] }]

theorem sampleType_distinct : sampleType.Distinct := by
  simp only [ResourceType.Distinct]
  decide

end Scim
