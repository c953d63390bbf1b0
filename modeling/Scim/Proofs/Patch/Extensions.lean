import Scim.Patch.Apply
import Scim.Proofs.Schema.Extensions

/-! Patches and the extensions of a resource type. A patch learns of the resource type what paths
and URNs lead to and nothing else, so the order of the extensions has no part in what it does. -/
namespace Scim

namespace ResourceType.Agrees

variable {type other : ResourceType}

theorem resolveText (agrees : type.Agrees other) : other.resolveText = type.resolveText := by
  funext text
  rw [ResourceType.resolveText, ResourceType.resolveText, agrees.resolve]

theorem home (agrees : type.Agrees other) (create : Bool) (urn : Option String)
    (resource : Resource) :
    resource.home other create urn = resource.home type create urn := by
  rw [Resource.home, Resource.home, agrees.extension?]

/-- Navigation starts at the same place and follows the same definitions. -/
theorem containers (agrees : type.Agrees other) (create : Bool) (base : Path)
    (resource : Resource) :
    resource.containers other create base = resource.containers type create base := by
  rw [Resource.containers, Resource.containers, agrees.home, agrees.lookup]

theorem changeContainers (agrees : type.Agrees other) (create : Bool) (path : Path)
    (change : Segment → Json → Outcome PatchError Json) :
    Resource.changeContainers other create path change =
      Resource.changeContainers type create path change := by
  funext resource
  simp only [Resource.changeContainers, agrees.containers]

theorem applyResolved (agrees : type.Agrees other) (options : PatchOptions) (kind : OpKind)
    (path : Path) (definition : Attribute) (patch : Patch) :
    patch.applyResolved other options kind path definition =
      patch.applyResolved type options kind path definition := by
  funext resource
  simp only [Patch.applyResolved, Resource.add, Resource.replace, Resource.remove,
    agrees.changeContainers]

theorem applyAtPath (agrees : type.Agrees other) (options : PatchOptions) (kind : OpKind)
    (patch : Patch) :
    patch.applyAtPath other options kind = patch.applyAtPath type options kind := by
  funext resource
  simp only [Patch.applyAtPath, agrees.resolveText, agrees.applyResolved, Resource.remove,
    agrees.changeContainers]

theorem addQualified (agrees : type.Agrees other) (options : PatchOptions) (urn : String)
    (fields : List (String × Json)) :
    Patch.addQualified other options urn fields = Patch.addQualified type options urn fields := by
  induction fields with
  | nil => rfl
  | cons field rest ih =>
    funext resource
    rw [Patch.addQualified, Patch.addQualified, agrees.applyAtPath, ih]

mutual

theorem addPathless (agrees : type.Agrees other) (options : PatchOptions) (resource : Resource)
    (value : Json) :
    Patch.addPathless other options resource value =
      Patch.addPathless type options resource value := by
  cases value with
  | object fields =>
    rw [Patch.addPathless, Patch.addPathless]
    exact addFields agrees options fields resource
  | _ => rfl

theorem addFields (agrees : type.Agrees other) (options : PatchOptions)
    (fields : List (String × Json)) (resource : Resource) :
    Patch.addFields other options fields resource =
      Patch.addFields type options fields resource := by
  cases fields with
  | nil => rfl
  | cons field rest =>
    obtain ⟨key, value⟩ := field
    have others := funext (addFields agrees options rest)
    have nested := addPathless agrees options resource value
    unfold Patch.addFields
    rw [agrees.schema?, others]
    dsimp only
    congr 1
    split
    · rw [agrees.addQualified]
    · rw [nested, agrees.applyAtPath]

end

theorem apply (agrees : type.Agrees other) (options : PatchOptions) (patch : Patch) :
    patch.apply other options = patch.apply type options := by
  funext resource
  simp only [Patch.apply, agrees.applyAtPath, agrees.addPathless]

end ResourceType.Agrees

namespace ResourceType

/-- **Extensions have no order, and one more takes nothing away.** With the extensions in another
order every path denotes the same and every patch does the same. With one more, whatever its URN, a
path that leads to a common or core attribute denotes what it did, and so does one with the URN of
a schema that was there. A path without URN that leads into an extension denotes what it did if the
new one has not its names, and nothing else. -/
theorem extensions_unordered_and_conservative {type : ResourceType} (distinct : type.Distinct) :
    (∀ others : List Schema, type.extensions.Perm others →
      (∀ path, type.ResolvesAlike ⟨type.core, others⟩ path) ∧
      ∀ (options : PatchOptions) (patch : Patch) (resource : Resource),
        patch.apply ⟨type.core, others⟩ options resource = patch.apply type options resource) ∧
    ∀ schema : Schema,
      (∀ path found, type.lookup path = some found → found.owner.extension? = none →
        type.ResolvesAlike (type.attach schema) path) ∧
      (∀ path urn, path.schema = some urn → (∃ id ∈ type.ids, Caseless id urn) →
        type.ResolvesAlike (type.attach schema) path) ∧
      ∀ path found owner, path.schema = none → type.lookup path = some found →
        found.owner = .extension owner →
        (walk schema.attributes path.names = none → type.ResolvesAlike (type.attach schema) path) ∧
        (walk schema.attributes path.names ≠ none → (type.attach schema).resolve path = none) := by
  refine ⟨fun others reordered => ?_, fun schema => ⟨?_, ?_, ?_⟩⟩
  · have agrees := agrees_perm distinct reordered
    exact ⟨agrees.resolvesAlike, fun options patch resource =>
      congrFun (agrees.apply options patch) resource⟩
  · intro path found looked unowned
    refine resolvesAlike_of_lookup rfl ?_
    rw [lookup_attach looked, if_neg (fun lost => lost.2.1 unowned), looked]
  · intro path urn qualified known
    exact resolvesAlike_of_lookup rfl (lookup_attach_of_qualified qualified known)
  · intro path found owner unqualified looked owned
    refine ⟨fun apart => resolvesAlike_of_lookup rfl ?_, fun shared => ?_⟩
    · rw [lookup_attach looked, if_neg (fun lost => lost.2.2 apart), looked]
    · have inside : found.owner.extension? ≠ none := by simp [owned, Owner.extension?]
      rw [resolve, lookup_attach looked, if_pos ⟨unqualified, inside, shared⟩, Option.bind_none]

def deskSchema : Schema := { id := "urn:ext:Desk", attributes := [{ name := "room" }] }

def addRoomAndDepartment : Patch :=
  ⟨"add", "", some (.object [("ROOM", .string "4b"),
    ("urn:EXT:work", .object [("department", .string "Sales")])])⟩

theorem staffType_desk_unordered_and_conservative :
    addRoomAndDepartment.apply ⟨staffType.core, deskSchema :: staffType.extensions⟩ {} ⟨[]⟩ =
      .done ⟨[("urn:ext:Desk", .object [("room", .string "4b")]),
        ("urn:ext:Work", .object [("department", .string "Sales")])]⟩ ∧
    ((staffType.attach deskSchema).attach
      { id := "urn:ext:Lab", attributes := [{ name := "Room" }] }).resolve
        ⟨none, [⟨"room", none⟩]⟩ = none := by
  have distinct : (staffType.attach deskSchema).Distinct := by
    simp only [Distinct]
    decide
  obtain ⟨unordered, conservative⟩ := extensions_unordered_and_conservative distinct
  have reordered : (staffType.attach deskSchema).extensions.Perm
      (deskSchema :: staffType.extensions) := List.perm_append_comm
  refine ⟨?_, ?_⟩
  · exact ((unordered _ reordered).2 {} addRoomAndDepartment ⟨[]⟩).trans (by decide +kernel)
  · exact ((conservative _).2.2 ⟨none, [⟨"room", none⟩]⟩ ⟨[{ name := "room" }], .extension deskSchema⟩
      deskSchema rfl (by decide +kernel) rfl).2 (by decide +kernel)

end ResourceType
end Scim
