import Scim.Patch.Payload
import Scim.Patch.Validation
import Scim.Path.Parser
import Scim.Resource.MultiValued
import Scim.Resource.Navigation

/-! Patches applied to a resource. A patch that fails leaves what it had changed by then, and
patches before it stay applied. -/
namespace Scim

namespace Fields

def setField (fields : Fields) (name : String) (value : Json) : Fields :=
  fields.set (fields.keyFor name) value

/-- Appends to a multi-valued attribute, and overwrites any other. -/
def addField (fields : Fields) (name : String) (definition : Attribute) (value : Json) : Fields :=
  if definition.multiValued then
    fields.setField name
      (.array ((MultiValued.ofField (fields.get? (fields.keyFor name))).add value).items)
  else fields.setField name value

/-- Removes the elements of which a filter holds, and the field when none is left. A null field
holds none. -/
def removeElements (fields : Fields) (key : String) (filter : Filter) (scope : Scope) : Fields :=
  match fields.get? key with
  | none | some .null => fields
  | some value =>
    let kept := (MultiValued.ofField (some value)).filter (.not filter) scope
    if kept.isEmpty then fields.erase key else fields.set key (.array kept.items)

def removeField (fields : Fields) (name : String) (filter : Option Filter) (scope : Scope) :
    Fields :=
  match fields.key? name, filter with
  | none, _ => fields
  | some key, none => fields.erase key
  | some key, some filter => fields.removeElements key filter scope

end Fields

/-- Changes an item of an array; nulls are passed over. -/
def changeElement (path : String) (change : Fields → Fields) : Json → Outcome PatchError Json
  | .object fields => .done (.object (change fields))
  | .null => .done .null
  | value => .stopped value (.nonObjectElement path)

def changeObjects (path : String) (change : Fields → Fields) : Json → Outcome PatchError Json
  | .object fields => .done (.object (change fields))
  | .array items => (Outcome.each (changeElement path change) items).map .array
  | value => .stopped value (.invalidBase path)

/-- Adds to an object; in each object of an array the attribute is overwritten. -/
def addAt (path name : String) (definition : Attribute) (value : Json) :
    Json → Outcome PatchError Json
  | .object fields => .done (.object (Fields.addField fields name definition value))
  | place => changeObjects path (fun fields => Fields.setField fields name value) place

namespace Resource

def changeContainers (type : ResourceType) (create : Bool) (path : Path)
    (change : Segment → Json → Outcome PatchError Json) (resource : Resource) :
    Outcome PatchError Resource :=
  match path.split? with
  | none => .stopped resource (.noAttribute path.render)
  | some (base, last) =>
    let containers := resource.containers type create base
    match containers.fault with
    | none => (containers.value.edit (change last)).map ofDocument
    | some fault => .stopped (ofDocument containers.value.document) fault

def add (type : ResourceType) (path : Path) (definition : Attribute) (value : Json) :
    Resource → Outcome PatchError Resource :=
  changeContainers type true path fun last => addAt path.render last.name definition value

/-- Overwrites the attribute in every container; a filter on the last segment does not narrow
it. -/
def replace (type : ResourceType) (path : Path) (value : Json) :
    Resource → Outcome PatchError Resource :=
  changeContainers type true path fun last =>
    changeObjects path.render fun fields => Fields.setField fields last.name value

/-- A filter on the last segment counts for a multi-valued attribute only. -/
def remove (type : ResourceType) (path : Path) (definition : Attribute) :
    Resource → Outcome PatchError Resource :=
  changeContainers type false path fun last =>
    let filter := if definition.multiValued then last.filter else none
    changeObjects path.render fun fields =>
      Fields.removeField fields last.name filter (.element definition)

end Resource

def ResourceType.resolveText (type : ResourceType) (text : String) :
    Except PatchError (Path × ResolvedAttribute) :=
  match Path.parse text with
  | .error error => .error (.parse error)
  | .ok path =>
    match type.resolve path with
    | some resolved => .ok resolved
    | none => .error (.noAttribute text)

namespace Patch

def preparedValue (options : PatchOptions) (kind : OpKind) (definition : Attribute)
    (patch : Patch) : Except PatchError Json :=
  match patch.value with
  | none => .error (.missingValue kind)
  | some value =>
    if options.normalizeValues then definition.normalize patch.path value else .ok value

def applyResolved (type : ResourceType) (options : PatchOptions) (kind : OpKind) (path : Path)
    (definition : Attribute) (patch : Patch) (resource : Resource) :
    Outcome PatchError Resource :=
  match kind with
  | .remove => resource.remove type path definition
  | .add =>
    match patch.preparedValue options kind definition with
    | .ok value => resource.add type path definition value
    | .error error => .stopped resource error
  | .replace =>
    match patch.preparedValue options kind definition with
    | .ok value => resource.replace type path value
    | .error error => .stopped resource error

/-- A remove by value as a remove through a filter, where that is wanted. -/
def removeByValueIf (wanted : Bool) (path : Path) (definition : Attribute) (patch : Patch) :
    Except PatchError (Option Patch) :=
  if wanted then patch.removeByValue path definition else .ok none

/-- Applies a patch with a path. A remove by value is taken up again from the text of its new
path. -/
def applyAtPath (type : ResourceType) (options : PatchOptions) (kind : OpKind) (patch : Patch)
    (resource : Resource) : Outcome PatchError Resource :=
  match type.resolveText patch.path with
  | .error error => .stopped resource error
  | .ok (path, resolved) =>
    match patch.removeByValueIf options.removeByValue path resolved.definition with
    | .error error => .stopped resource error
    | .ok none => patch.applyResolved type options kind path resolved.definition resource
    | .ok (some removal) =>
      match type.resolveText removal.path with
      | .error error => .stopped resource error
      | .ok (path, resolved) => resource.remove type path resolved.definition

def addQualified (type : ResourceType) (options : PatchOptions) (urn : String) :
    List (String × Json) → Resource → Outcome PatchError Resource
  | [], resource => .done resource
  | (name, value) :: rest, resource =>
    ((Patch.add (urn ++ ":" ++ name) value).applyAtPath type options .add resource).andThen
      (addQualified type options urn rest)

mutual

/-- An addition without a path: each field of the value is added by itself. An object under the
URN of a schema adds the fields it holds to that schema. -/
def addPathless (type : ResourceType) (options : PatchOptions) (resource : Resource) :
    Json → Outcome PatchError Resource
  | .object fields => addFields type options fields resource
  | _ => .stopped resource .pathlessAddNotObject

def addFields (type : ResourceType) (options : PatchOptions) :
    List (String × Json) → Resource → Outcome PatchError Resource
  | [], resource => .done resource
  | (key, value) :: rest, resource =>
    let added := match type.schema? key, value with
      | some schema, .object fields => addQualified type options schema.id fields resource
      | _, value =>
        if key.isEmpty then addPathless type options resource value
        else (Patch.add key value).applyAtPath type options .add resource
    added.andThen (addFields type options rest)

end

def apply (type : ResourceType) (options : PatchOptions) (patch : Patch) (resource : Resource) :
    Outcome PatchError Resource :=
  match patch.kind? with
  | none => .stopped resource (.invalidOperation patch.op)
  | some kind =>
    if !patch.path.isEmpty then patch.applyAtPath type options kind resource
    else
      match kind, patch.value with
      | .add, some value => addPathless type options resource value
      | .add, none => .stopped resource (.missingValue .add)
      | kind, _ => .stopped resource (.missingPath kind)

def applyAll (type : ResourceType) (options : PatchOptions) :
    List Patch → Resource → Outcome PatchError Resource
  | [], resource => .done resource
  | patch :: rest, resource =>
    (patch.apply type options resource).andThen (applyAll type options rest)

end Patch

/-- Applies a request that passes validation. -/
def Request.apply (type : ResourceType) (options : PatchOptions) (request : Request)
    (resource : Resource) : Outcome PatchError Resource :=
  match request.validate with
  | .error error => .stopped resource (.validation error)
  | .ok () => Patch.applyAll type options request.operations resource

end Scim
