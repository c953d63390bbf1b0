import Scim.Proofs.Patch.Locality
import Scim.Proofs.Resource.Composition
import Scim.Proofs.Resource.Writing

/-! Additions to multi-valued attributes. An object keeps the elements that it has, in their order,
and the added ones come behind them; so lists that are added in turn are added at once. -/
namespace Scim

namespace Fields

variable {definition : Attribute}

theorem addField_multiValued (multiValued : definition.multiValued = true) (fields : Fields)
    (name : String) (value : Json) :
    fields.addField name definition value = fields.set (fields.keyFor name)
      (.array ((MultiValued.ofField (fields.find? name)).items ++ MultiValued.elementsOf value)) := by
  rw [addField, if_pos multiValued, get?_keyFor]
  rfl

/-- The elements that were added are there for the next addition. -/
theorem addField_addField (multiValued : definition.multiValued = true) (fields : Fields)
    (name : String) (xs ys : List Json) :
    (fields.addField name definition (.array xs)).addField name definition (.array ys) =
      fields.addField name definition (.array (xs ++ ys)) := by
  simp only [addField_multiValued multiValued, find?_written, keyFor_set_keyFor, set_set,
    MultiValued.ofField, MultiValued.elementsOf, List.append_assoc]

end Fields

namespace Patch

variable {patch : Patch} {type : ResourceType} {written base : Path} {found : Resolution}
  {definition : Attribute} {last : Segment} {options : PatchOptions} {kind : OpKind}

/-- Values for multi-valued attributes are written as they are. -/
theorem preparedValue_of_multiValued (multiValued : definition.multiValued = true) (value : Json) :
    (patch.withValue value).preparedValue options kind definition = .ok value := by
  simp [preparedValue, withValue, Attribute.normalize, Attribute.holdsPlainValue, multiValued]

theorem Addresses.done?_add (addressed : patch.Addresses type .add written found)
    (target : found.chain.getLast? = some definition) (multiValued : definition.multiValued = true)
    (split : (type.respell found written).split? = some (base, last)) (options : PatchOptions)
    (value : Json) (resource : Resource) :
    ((patch.withValue value).apply type options resource).done? =
      ((resource.containers type true base).done?.bind fun places =>
        places.traverse fun place => (Resource.containerChange .add (type.respell found written)
          definition value last place).done?).map Resource.ofDocument :=
  have addressed : (patch.withValue value).Addresses type .add written found :=
    addressed.toLeadsTo.addresses rfl addressed.known
  addressed.done?_apply target
    (removeByValueIf_of_kind addressed.known OpKind.noConfusion ..)
    (.inr (preparedValue_of_multiValued multiValued value)) split (Eq.refl true) resource

/-- **Additions to a multi-valued attribute append.** Where the base of the path leads to objects
only, an addition succeeds, and in each of them the field becomes the list of the elements that were
there and those that are added. Without filters in the base, two lists that are added in turn are
added at once. -/
theorem apply_add_appends (distinct : type.Distinct) (addressed : patch.Addresses type .add written found)
    (target : found.chain.getLast? = some definition) (multiValued : definition.multiValued = true)
    (split : (type.respell found written).split? = some (base, last)) {resource : Resource}
    {places : Focus} (reached : resource.containers type true base = .done places)
    (objects : ∀ place ∈ places.targets, place.isObject = true) (options : PatchOptions) :
    (∀ value, (patch.withValue value).apply type options resource =
      .done (.ofDocument (places.rewrite (Json.mapObject fun fields =>
        fields.set (fields.keyFor last.name) (.array
          ((MultiValued.ofField (fields.find? last.name)).items ++ MultiValued.elementsOf value)))))) ∧
    ((∀ segment ∈ base.segments, segment.filter = none) → ∀ xs ys,
      ((patch.withValue (.array xs)).apply type options resource).andThen
          ((patch.withValue (.array ys)).apply type options) =
        (patch.withValue (.array (xs ++ ys))).apply type options resource) := by
  have adds := addressed.done?_add target multiValued split options
  have changed (value : Json) : (resource.containers type true base).done?.bind (fun places =>
      places.traverse fun place => (Resource.containerChange .add (type.respell found written)
        definition value last place).done?) = some (places.rewrite (Json.mapObject fun fields =>
          fields.addField last.name definition value)) := by
    rw [reached]
    refine Focus.traverse_objects (fun fields => ?_) objects
    rfl
  have appends (value : Json) : (patch.withValue value).apply type options resource =
      .done (.ofDocument (places.rewrite (Json.mapObject fun fields =>
        fields.addField last.name definition value))) := by
    rw [← Outcome.done?_eq_some_iff, adds, changed, Option.map_some]
  refine ⟨fun value => ?_, fun plain xs ys => ?_⟩
  · simp only [appends, Fields.addField_multiValued multiValued]
  · obtain ⟨_, _, parts, _, _, leads⟩ := ResourceType.split_respell distinct addressed.resolved
    cases split.symm.trans parts
    have kept (value : Json) :=
      Resource.keepsShape_containerChange .add (type.respell found written) definition value last
    have again := Resource.containers_again type leads plain (fun creates => creates)
      (kept (.array xs)) (kept (.array ys)) (changed (.array xs))
    rw [appends, appends, Outcome.andThen, Outcome.done]
    dsimp only
    rw [← Outcome.done?_eq_some_iff, adds, again, reached]
    refine congrArg (Option.map Resource.ofDocument) (Focus.traverse_objects (fun fields => ?_) objects)
    exact congrArg (fun fields => some (Json.object fields))
      (fields.addField_addField multiValued last.name xs ys)

def addBadges : Patch := ⟨"add", "Badges", none⟩

def loneBadge : Resource := ⟨[("URN:EXT:WORK", .object [("Badges", .string "a")])]⟩

theorem addBadges_appends :
    (addBadges.withValue (.array [.string "b", .string "c"])).apply sampleType {} loneBadge =
      .done ⟨[("URN:EXT:WORK", .object [("Badges",
        .array [.string "a", .string "b", .string "c"])])]⟩ ∧
    ((addBadges.withValue (.array [.string "b"])).apply sampleType {} loneBadge).andThen
        ((addBadges.withValue (.array [.string "c"])).apply sampleType {}) =
      (addBadges.withValue (.array [.string "b", .string "c"])).apply sampleType {} loneBadge := by
  have addressed : addBadges.Addresses sampleType .add _ _ :=
    removeBadge_leadsTo.addresses rfl (OpKind.ofWord?_word .add)
  have reached : loneBadge.containers sampleType true ⟨some "urn:ext:Work", []⟩ =
      .done (.member loneBadge.fields "URN:EXT:WORK" (.target (.object [("Badges", .string "a")]))) :=
    rfl
  have appends := apply_add_appends sampleType_distinct addressed rfl rfl rfl reached (by decide) {}
  exact ⟨(appends.1 _).trans (by decide), appends.2 (by decide) _ _⟩

end Patch
end Scim
