import Scim.Patch.Apply
import Scim.Proofs.Json.Entries
import Scim.Proofs.Patch.Addressing
import Scim.Proofs.Resource.Traversal

/-! A patch followed from the root of the document downwards, one branch after another. Main
statement: applying a patch comes to the end exactly if this recursion does, with the document
that it builds. -/
namespace Scim

/-- What is done to the objects that hold an attribute: to one that a path leads to by itself,
and to one that is an item of an array there. -/
structure HolderEdit where
  inObject : Fields → Fields
  inItem : Fields → Fields

/-- An addition appends to a multi-valued attribute of an object, but overwrites it in the items
of an array. A filter on the last segment counts for removals of multi-valued attributes. -/
def OpKind.holderEdit (definition : Attribute) (value : Json) (last : Segment) :
    OpKind → HolderEdit
  | .add => ⟨fun fields => Fields.addField fields last.name definition value,
      fun fields => Fields.setField fields last.name value⟩
  | .replace => ⟨fun fields => Fields.setField fields last.name value,
      fun fields => Fields.setField fields last.name value⟩
  | .remove =>
    let filter := if definition.multiValued then last.filter else none
    ⟨fun fields => Fields.removeField fields last.name filter (.element definition),
      fun fields => Fields.removeField fields last.name filter (.element definition)⟩

namespace Json

def throughItem (go : Fields → Option Fields) : Json → Option Json
  | .object fields => (go fields).map .object
  | .null => some .null
  | _ => none

/-- Goes on with an object, or with the items of an array. -/
def through (inObject inItem : Fields → Option Fields) : Json → Option Json
  | .object fields => (inObject fields).map .object
  | .array items => (items.mapM (throughItem inItem)).map .array
  | .null => some .null
  | _ => none

end Json

/-- Goes on with the elements that the filter of a segment selects: of an array those it holds
of, and any other value if it holds of that. -/
def Segment.among (segment : Segment) (definition : Attribute) (go : Json → Option Json)
    (value : Json) : Option Json :=
  match segment.filter, value with
  | none, value => go value
  | some filter, .array items =>
    (items.mapM fun item =>
      if filter.holds (.element definition) item then go item else some item).map .array
  | some filter, value => if filter.holds (.element definition) value then go value else some value

namespace Fields

/-- The child under a name. One that is absent or null is none, or a new object where it is to
be created. -/
def child? (fields : Fields) (name : String) (create : Bool) : Option Json :=
  match fields.find? name with
  | none | some .null => if create then some (.object []) else none
  | found => found

/-- Follows the segments ahead of the last from an object on, and edits the objects reached. -/
def descend (create : Bool) (edit : HolderEdit) :
    List (Segment × Attribute) → Fields → Option Fields
  | [], fields => some (edit.inObject fields)
  | (segment, definition) :: more, fields =>
    match fields.child? segment.name (create && definition.isComplex && !definition.multiValued) with
    | none => some fields
    | some child =>
      let inItem := if more.isEmpty then fun item => some (edit.inItem item)
        else descend create edit more
      (segment.among definition (Json.through (descend create edit more) inItem) child).map
        fun child => fields.set (fields.keyFor segment.name) child

/-- Goes on where the attributes of an owner stand: at the top, or in the object under the URN
of an extension. -/
def atHome (create : Bool) (owner : Owner) (go : Fields → Option Fields) (fields : Fields) :
    Option Fields :=
  match owner.extension? with
  | none => go fields
  | some schema =>
    match fields.find? schema.id with
    | none | some .null =>
      if create then
        (go []).map fun inner => fields.set (fields.keyFor schema.id) (.object inner)
      else some fields
    | some (.object inner) =>
      (go inner).map fun inner => fields.set (fields.keyFor schema.id) (.object inner)
    | some _ => none

end Fields

def ResourceType.definitions (type : ResourceType) (path : Path) : List (Segment × Attribute) :=
  match type.lookup path with
  | some found => path.segments.zip found.chain
  | none => []

/-- The whole recursion, for a path in canonical spelling. -/
def Resource.descend (type : ResourceType) (create : Bool) (owner : Owner) (path : Path)
    (edit : Segment → HolderEdit) (resource : Resource) : Option Resource :=
  match path.split? with
  | none => none
  | some (base, last) =>
    (resource.fields.atHome create owner (Fields.descend create (edit last) (type.definitions base))).map
      Resource.mk

namespace Fields

theorem slot?_create (fields : Fields) (name : String) :
    fields.slot? name true = fields.child? name true := by
  unfold slot? child?
  rw [get?_keyFor]
  rcases fields.find? name with _ | value
  · rfl
  · cases value <;> rfl

theorem slot?_keep (fields : Fields) (name : String) :
    fields.slot? name false = fields.find? name := by
  unfold slot?
  rw [get?_keyFor]
  rcases fields.find? name with _ | value
  · rfl
  · cases value <;> rfl

end Fields

namespace Focus

theorem traverse_selectIf (change : Json → Option Json) (condition : Json → Bool) (value : Json) :
    (selectIf condition value).traverse change =
      if condition value then change value else some value := by
  simp only [selectIf]
  split <;> rfl

theorem traverse_select_array (change : Json → Option Json) (condition : Json → Bool)
    (items : List Json) :
    (select condition (.array items)).traverse change =
      (items.mapM fun item => if condition item then change item else some item).map .array := by
  simp only [select, traverse, traverseAll_map, traverse_selectIf]

/-- A filter lets through the elements among which the recursion goes on. -/
theorem entering_eq_among (create : Bool) (segment : Segment) (definition : Attribute)
    (change : Json → Option Json) (value : Json) :
    entering create segment definition change value =
      (descend segment.name (create && definition.isComplex && !definition.multiValued)
        value).traverse (segment.among definition change) := by
  unfold entering enter Segment.among
  cases segment.filter with
  | none => rfl
  | some filter =>
    simp only [refine, traverse_refine]
    apply traverse_congr
    intro value _
    cases value with
    | array items => exact traverse_select_array ..
    | _ => simp only [select, traverse_selectIf]

theorem among_null {change : Json → Option Json} (passes : change .null = some .null)
    (segment : Segment) (definition : Attribute) :
    segment.among definition change .null = some .null := by
  unfold Segment.among
  cases segment.filter <;> simp [passes]

theorem entering_object {change : Json → Option Json} (passes : change .null = some .null)
    (create : Bool) (segment : Segment) (definition : Attribute) (fields : Fields) :
    entering create segment definition change (.object fields) =
      match fields.child? segment.name
          (create && definition.isComplex && !definition.multiValued) with
      | none => some (.object fields)
      | some child => (segment.among definition change child).map fun child =>
          .object (fields.set (fields.keyFor segment.name) child) := by
  rw [entering_eq_among]
  generalize (create && definition.isComplex && !definition.multiValued) = creatable
  simp only [Focus.descend]
  cases creatable with
  | true =>
    rw [Fields.slot?_create]
    cases Fields.child? fields segment.name true <;> rfl
  | false =>
    rw [Fields.slot?_keep, Fields.child?]
    have null := among_null passes segment definition
    cases found : Fields.find? fields segment.name with
    | none => rfl
    | some child =>
      cases child with
      | null =>
        have held := (Fields.get?_keyFor fields segment.name).trans found
        simp [traverse, null, Fields.set_self held]
      | _ => rfl

/-- Without a condition on its items the recursion goes through every object of an array. -/
theorem mapM_throughItem_of_all {go : Fields → Option Fields} {change : Json → Option Json}
    (objects : ∀ fields, change (.object fields) = (go fields).map .object) (items : List Json)
    (passable : items.all (fun item => item.isObject || item.isNull) = true) :
    (items.mapM fun item => if item.isObject then change item else some item) =
      items.mapM (Json.throughItem go) := by
  induction items with
  | nil => rfl
  | cons item rest ih =>
    obtain ⟨here, later⟩ := Bool.and_eq_true_iff.mp passable
    rw [List.mapM_cons, List.mapM_cons, ih later]
    cases item with
    | object fields => simp [Json.isObject, Json.throughItem, objects]
    | null => rfl
    | _ => cases here

theorem mapM_throughItem_eq_none {go : Fields → Option Fields} {items : List Json}
    (blocked : items.all (fun item => item.isObject || item.isNull) = false) :
    items.mapM (Json.throughItem go) = none := by
  induction items with
  | nil => cases blocked
  | cons item rest ih =>
    rw [List.mapM_cons]
    rcases Bool.and_eq_false_iff.mp blocked with here | later
    · cases item <;> first | rfl | cases here
    · rw [ih later]
      cases Json.throughItem go item <;> rfl

/-- What is passed on the way is what the recursion goes through. -/
theorem passing_eq_through {go : Fields → Option Fields} {change : Json → Option Json}
    (objects : ∀ fields, change (.object fields) = (go fields).map .object) (path : String)
    (value : Json) : passing path change value = Json.through go go value := by
  cases value with
  | object fields => exact objects fields
  | array items =>
    cases all : items.all fun item => item.isObject || item.isNull with
    | true =>
      simp only [passing, obstacle?, all, if_true, Option.isSome_none, Bool.false_eq_true, if_false,
        parents, traverse_select_array, Json.through]
      rw [mapM_throughItem_of_all objects items all]
    | false =>
      simp [passing, obstacle?, all, Json.through, mapM_throughItem_eq_none all]
  | _ => rfl

theorem present_eq_through {edit : HolderEdit} {change : Json → Option Json}
    (edits : ∀ value, value ≠ .null → change value =
      Json.through (fun fields => some (edit.inObject fields))
        (fun fields => some (edit.inItem fields)) value) (value : Json) :
    (present value).traverse change =
      Json.through (fun fields => some (edit.inObject fields))
        (fun fields => some (edit.inItem fields)) value := by
  rw [present, traverse_selectIf]
  cases value with
  | null => rfl
  | _ => exact edits _ (by simp)

/-- The change at the end of the segments, seen from an object where they start, is the
recursion. -/
theorem following_object {edit : HolderEdit} {change : Json → Option Json}
    (edits : ∀ value, value ≠ .null → change value =
      Json.through (fun fields => some (edit.inObject fields))
        (fun fields => some (edit.inItem fields)) value)
    (create : Bool) (path : String) (segments : List (Segment × Attribute)) (fields : Fields) :
    following create path change segments (.object fields) =
      (fields.descend create edit segments).map .object := by
  induction segments generalizing fields with
  | nil => exact edits _ (by simp)
  | cons first more ih =>
    obtain ⟨segment, definition⟩ := first
    rw [Fields.descend]
    cases more with
    | nil =>
      rw [following, entering_object (by rfl)]
      simp only [present_eq_through edits]
      cases Fields.child? fields segment.name
          (create && definition.isComplex && !definition.multiValued) with
      | none => rfl
      | some child =>
        simp only [Option.map_map, List.isEmpty_nil, if_true, Fields.descend]
        rfl
    | cons next more =>
      have through : passing path (following create path change (next :: more)) =
          Json.through (Fields.descend create edit (next :: more))
            (Fields.descend create edit (next :: more)) :=
        funext (passing_eq_through ih path)
      rw [following, through, entering_object (by rfl)]
      · cases Fields.child? fields segment.name
            (create && definition.isComplex && !definition.multiValued) with
        | none => rfl
        | some child =>
          simp only [Option.map_map, List.isEmpty_cons, Bool.false_eq_true, if_false]
          rfl
      · exact List.cons_ne_nil _ _

end Focus

theorem done?_changeElement (path : String) (change : Fields → Fields) (item : Json) :
    (changeElement path change item).done? =
      Json.throughItem (fun fields => some (change fields)) item := by
  cases item <;> rfl

theorem done?_changeObjects (path : String) (change : Fields → Fields) (value : Json)
    (present : value ≠ .null) :
    (changeObjects path change value).done? =
      Json.through (fun fields => some (change fields)) (fun fields => some (change fields))
        value := by
  cases value with
  | array items =>
    simp only [changeObjects, Outcome.done?_map, Outcome.done?_each, done?_changeElement,
      Json.through]
  | null => exact absurd rfl present
  | _ => rfl

namespace Resource

def containerChange (kind : OpKind) (path : Path) (definition : Attribute) (value : Json)
    (last : Segment) : Json → Outcome PatchError Json :=
  match kind with
  | .add => addAt path.render last.name definition value
  | .replace => changeObjects path.render fun fields => Fields.setField fields last.name value
  | .remove =>
    let filter := if definition.multiValued then last.filter else none
    changeObjects path.render fun fields =>
      Fields.removeField fields last.name filter (.element definition)

theorem done?_containerChange (kind : OpKind) (path : Path) (definition : Attribute)
    (value : Json) (last : Segment) (place : Json) (present : place ≠ .null) :
    (containerChange kind path definition value last place).done? =
      Json.through (fun fields => some ((kind.holderEdit definition value last).inObject fields))
        (fun fields => some ((kind.holderEdit definition value last).inItem fields)) place := by
  cases kind with
  | add =>
    cases place with
    | object fields => rfl
    | null => exact absurd rfl present
    | array items => exact done?_changeObjects _ _ (.array items) (by simp)
    | _ => rfl
  | replace => exact done?_changeObjects _ _ place present
  | remove => exact done?_changeObjects _ _ place present

theorem home_traverse (type : ResourceType) (create : Bool) (owner : Owner) (urn : Option String)
    (owned : urn.bind type.extension? = owner.extension?) (go : Fields → Option Fields)
    (change : Json → Option Json) (objects : ∀ fields, change (.object fields) = (go fields).map .object)
    (resource : Resource) :
    (resource.home type create urn).done?.bind (·.traverse change) =
      (resource.fields.atHome create owner go).map .object := by
  rw [home, Fields.atHome, owned]
  cases owner.extension? with
  | none => exact objects resource.fields
  | some schema =>
    cases create with
    | true =>
      simp only [Fields.slot?_create, Fields.child?]
      cases found : Fields.find? resource.fields schema.id with
      | none => simp [Focus.traverse, objects, Function.comp_def]
      | some value => cases value <;> simp [Focus.traverse, objects, Function.comp_def]
    | false =>
      simp only [Fields.slot?_keep]
      cases found : Fields.find? resource.fields schema.id with
      | none => rfl
      | some value =>
        cases value <;> simp [Focus.traverse, objects, Function.comp_def, Resource.document]

/-- Changing all the containers of an attribute is one change of the place where its owner is at
home. -/
theorem containers_bind_traverse (type : ResourceType) (create : Bool) (base : Path)
    (leads : base.isRoot = true ∨ ∃ found, type.lookup base = some found)
    (change : Json → Option Json) (resource : Resource) :
    (resource.containers type create base).done?.bind (·.traverse change) =
      (resource.home type create base.schema).done?.bind
        (·.traverse (Focus.following create base.render change (type.definitions base))) := by
  simp only [containers]
  cases resource.home type create base.schema with
  | mk place fault =>
    cases fault with
    | some fault => rfl
    | none =>
      cases empty : place.targets.isEmpty with
      | true =>
        simp only [Option.isSome_none, Bool.false_or, Bool.true_or, if_true]
        apply Focus.traverse_congr
        intro value member
        simp [List.isEmpty_iff.mp empty] at member
      | false =>
        rcases leads with root | ⟨found, looked⟩
        · have nowhere : type.definitions base = [] := by
            simp [ResourceType.definitions, ResourceType.lookup, root]
          simp [root, nowhere, Focus.following]
        · have onward : base.isRoot = false := (ResourceType.lookup_cases looked).1
          simp only [Option.isSome_none, onward, Bool.or_false, Bool.false_eq_true, if_false,
            looked, Focus.follow_traverse, ResourceType.definitions]
          rfl

/-- Changing all the containers of an attribute is the recursion from the home of its owner. -/
theorem containers_traverse (type : ResourceType) (create : Bool) (owner : Owner) (base : Path)
    (owned : base.schema.bind type.extension? = owner.extension?)
    (leads : base.isRoot = true ∨ ∃ found, type.lookup base = some found) {edit : HolderEdit}
    {change : Json → Option Json}
    (edits : ∀ value, value ≠ .null → change value =
      Json.through (fun fields => some (edit.inObject fields))
        (fun fields => some (edit.inItem fields)) value) (resource : Resource) :
    (resource.containers type create base).done?.bind (·.traverse change) =
      (resource.fields.atHome create owner
        (Fields.descend create edit (type.definitions base))).map .object := by
  rw [containers_bind_traverse type create base leads]
  exact home_traverse type create owner base.schema owned _ _
    (Focus.following_object edits create base.render (type.definitions base)) resource

theorem done?_changeContainers (type : ResourceType) (create : Bool) (path base : Path)
    (last : Segment) (split : path.split? = some (base, last))
    (change : Segment → Json → Outcome PatchError Json) (resource : Resource) :
    (resource.changeContainers type create path change).done? =
      ((resource.containers type create base).done?.bind fun places =>
        places.traverse fun value => (change last value).done?).map ofDocument := by
  simp only [changeContainers, split]
  cases resource.containers type create base with
  | mk places fault =>
    cases fault with
    | some fault => rfl
    | none => rw [Outcome.done?_map, Focus.done?_edit]; rfl

end Resource

namespace Patch

/-- The changes of a patch whose value is ready are those of its operation in the containers. -/
theorem applyResolved_eq (patch : Patch) (type : ResourceType) (options : PatchOptions)
    (kind : OpKind) (path : Path) (definition : Attribute) (value : Json)
    (prepared : kind = .remove ∨ patch.preparedValue options kind definition = .ok value)
    (resource : Resource) :
    patch.applyResolved type options kind path definition resource =
      resource.changeContainers type (kind != .remove) path
        (Resource.containerChange kind path definition value) := by
  cases kind with
  | remove => rfl
  | add =>
    rcases prepared with other | prepared
    · cases other
    · simp only [applyResolved, prepared]
      rfl
  | replace =>
    rcases prepared with other | prepared
    · cases other
    · simp only [applyResolved, prepared]
      rfl

theorem applyResolved_refused {patch : Patch} {type : ResourceType} {options : PatchOptions}
    {kind : OpKind} {path : Path} {definition : Attribute} {error : PatchError}
    (writes : kind ≠ .remove)
    (refused : patch.preparedValue options kind definition = .error error) (resource : Resource) :
    patch.applyResolved type options kind path definition resource = .stopped resource error := by
  cases kind with
  | remove => exact absurd rfl writes
  | add | replace => simp only [applyResolved, refused]

/-- What comes to the end has a value to write, or none is needed. -/
theorem exists_prepared {patch : Patch} {type : ResourceType} {options : PatchOptions}
    {kind : OpKind} {path : Path} {definition : Attribute} {resource result : Resource}
    (done : patch.applyResolved type options kind path definition resource = .done result) :
    ∃ value, kind = .remove ∨ patch.preparedValue options kind definition = .ok value := by
  by_cases removes : kind = .remove
  · exact ⟨.null, .inl removes⟩
  · cases prepared : patch.preparedValue options kind definition with
    | ok value => exact ⟨value, .inr rfl⟩
    | error error =>
      rw [applyResolved_refused removes prepared] at done
      cases congrArg Outcome.fault done

/-- **Navigation is descent.** A patch that is no remove by value is applied to the end exactly
if the recursion from the root along its path is, and then leaves what the recursion builds. -/
theorem apply_eq_done_iff_descend (type : ResourceType) (distinct : type.Distinct)
    (options : PatchOptions) (patch : Patch) (kind : OpKind) (written : Path) (found : Resolution)
    (definition : Attribute) (value : Json) (addressed : patch.Addresses type kind written found)
    (target : found.chain.getLast? = some definition)
    (kept : patch.removeByValueIf options.removeByValue (type.respell found written) definition =
      .ok none)
    (prepared : kind = .remove ∨ patch.preparedValue options kind definition = .ok value)
    (resource result : Resource) :
    patch.apply type options resource = .done result ↔
      resource.descend type (kind != .remove) found.owner (type.respell found written)
        (fun last => kind.holderEdit definition value last) = some result := by
  rw [← Outcome.done?_eq_some_iff, addressed.apply_of_kept target kept,
    applyResolved_eq _ _ _ _ _ _ _ prepared]
  suffices same : (resource.changeContainers type (kind != .remove) (type.respell found written)
      (Resource.containerChange kind (type.respell found written) definition value)).done? =
      resource.descend type (kind != .remove) found.owner (type.respell found written)
        (fun last => kind.holderEdit definition value last) by rw [same]
  obtain ⟨base, last, split, _, schema, leads⟩ :=
    ResourceType.split_respell distinct addressed.resolved
  have owned := ResourceType.extension?_canonicalUrn distinct addressed.resolved
  rw [← schema] at owned
  rw [Resource.done?_changeContainers _ _ _ _ _ split, Resource.descend, split]
  simp only [Resource.containers_traverse type _ _ base owned leads
    (Resource.done?_containerChange kind (type.respell found written) definition value last),
    Option.map_map]
  rfl

def replaceWorkMails : Patch :=
  ⟨"Replace", "Emails[type eq \"work\"].value", some (.string "b@x")⟩

theorem replaceWorkMails_addresses :
    replaceWorkMails.Addresses sampleType .replace
      ⟨none, [⟨"Emails", some (.compare ⟨none, [⟨"type", none⟩]⟩ .equal (.string "work"))⟩,
        ⟨"value", none⟩]⟩
      ⟨[{ name := "emails", type := .complex, multiValued := true, subAttributes := [
        { name := "value" }, { name := "type" }] }, { name := "value" }], .core⟩ where
  known := by decide
  nonempty := by decide
  parsed := by decide +kernel
  resolved := rfl

theorem replaceWorkMails_descends :
    replaceWorkMails.apply sampleType {} ⟨[("emails", .array [
      .object [("type", .string "home"), ("value", .string "a@x")],
      .object [("type", .string "Work")]])]⟩ = .done ⟨[("emails", .array [
      .object [("type", .string "home"), ("value", .string "a@x")],
      .object [("type", .string "Work"), ("value", .string "b@x")]])]⟩ :=
  (apply_eq_done_iff_descend sampleType sampleType_distinct {} replaceWorkMails .replace _ _
    { name := "value" } (.string "b@x") replaceWorkMails_addresses rfl rfl (.inr rfl) _ _).mpr rfl

end Patch
end Scim
