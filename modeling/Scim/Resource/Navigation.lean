import Scim.Filter.Evaluation
import Scim.Patch.Error
import Scim.Path.Printer
import Scim.Resource.Focus

/-! From a resource to the containers of an attribute: the values that hold it directly. A path
is followed one segment at a time in all places at once, and single-valued complex attributes
that are absent or null can be created on the way. -/
namespace Scim

structure Resource where
  fields : Fields
  deriving DecidableEq

namespace Resource

def ofJson? : Json → Except PatchError Resource
  | .object fields => .ok ⟨fields⟩
  | value => .error (.invalidValue "" (.resourceNotObject value))

def document (resource : Resource) : Json := .object resource.fields

def ofDocument : Json → Resource
  | .object fields => ⟨fields⟩
  | _ => ⟨[]⟩

@[simp] theorem ofDocument_document (resource : Resource) :
    ofDocument resource.document = resource := rfl

end Resource

/-- The value of a field in any spelling, as an empty object where it is to be created. -/
def Fields.slot? (fields : Fields) (name : String) (create : Bool) : Option Json :=
  match fields.get? (fields.keyFor name), create with
  | none, true | some .null, true => some (.object [])
  | found, _ => found

namespace Focus

def descend (name : String) (create : Bool) : Json → Focus
  | .object fields =>
    match Fields.slot? fields name create with
    | some value => .member fields (Fields.keyFor fields name) (.target value)
    | none => .plain (.object fields)
  | value => .plain value

def selectIf (condition : Json → Bool) (value : Json) : Focus :=
  if condition value then .target value else .plain value

/-- The items of an array, or else the value itself, of which a condition holds. -/
def select (condition : Json → Bool) : Json → Focus
  | .array items => .elements (items.map (selectIf condition))
  | value => selectIf condition value

/-- The objects in which the next segment is looked for: a value itself or the items of an
array. -/
def parents : Json → Focus := select Json.isObject

def present : Json → Focus := selectIf fun value => !value.isNull

def enter (create : Bool) (segment : Segment) (definition : Attribute) (focus : Focus) : Focus :=
  let creatable := create && definition.isComplex && !definition.multiValued
  let reached := focus.refine (descend segment.name creatable)
  match segment.filter with
  | some filter => reached.refine (select fun value => filter.holds (.element definition) value)
  | none => reached

/-- Why a path cannot lead through a value: objects, arrays of objects and nulls can be passed. -/
def obstacle? (path : String) : Json → Option PatchError
  | .object _ | .null => none
  | .array items =>
    if items.all fun item => item.isObject || item.isNull then none
    else some (.nonObjectElement path)
  | _ => some (.invalidBase path)

/-- Follows segments with their definitions; `path` names the whole in faults. A fault leaves
what was created up to its segment. -/
def follow (create : Bool) (path : String) :
    List (Segment × Attribute) → Focus → Outcome PatchError Focus
  | [], focus => .done focus
  | [(segment, definition)], focus =>
    .done ((focus.enter create segment definition).refine present)
  | (segment, definition) :: more, focus =>
    let reached := focus.enter create segment definition
    match reached.targets.findSome? (obstacle? path) with
    | some fault => .stopped reached fault
    | none => follow create path more (reached.refine parents)

end Focus

namespace Resource

/-- Where the attributes of a schema stand: within the object of an extension, which has nothing
where it is absent, or at the top. -/
def home (type : ResourceType) (create : Bool) (urn : Option String) (resource : Resource) :
    Outcome PatchError Focus :=
  match urn.bind type.extension? with
  | none => .done (.target resource.document)
  | some schema =>
    match resource.fields.slot? schema.id create with
    | some (.object inner) =>
      .done (.member resource.fields (resource.fields.keyFor schema.id) (.target (.object inner)))
    | some .null | none => .done (.plain resource.document)
    | some _ => .stopped (.plain resource.document) (.invalidBase schema.id)

/-- The places that hold the attribute which comes after `base`. -/
def containers (type : ResourceType) (create : Bool) (base : Path) (resource : Resource) :
    Outcome PatchError Focus :=
  let home := resource.home type create base.schema
  if home.fault.isSome || home.value.targets.isEmpty || base.isRoot then home
  else
    match type.lookup base with
    | some found => home.value.follow create base.render (base.segments.zip found.chain)
    | none => .stopped home.value (.noAttribute base.render)

end Resource
end Scim
