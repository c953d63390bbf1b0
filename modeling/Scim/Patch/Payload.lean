import Scim.Json.Fields
import Scim.Patch.Error
import Scim.Path.Printer
import Scim.Schema.Attribute

/-! Payloads that wrap a value: `{"value": x}` and arrays that start with one. A remove with such
a payload becomes a remove through a filter, and an addition of one to a single-valued text or
truth value adds what is inside. -/
namespace Scim

namespace Json

/-- What an object holds under `value`, in any spelling; any other value is itself. -/
def unwrapObject : Json → Option Json
  | .object fields => Fields.find? fields "value"
  | value => some value

/-- The value inside a payload. Of an array only the first item counts, which is no array. -/
def unwrap : Json → Option Json
  | .array (.array _ :: _) => none
  | .array (first :: _) => first.unwrapObject
  | .array [] => none
  | value => value.unwrapObject

def isWrapper : Json → Bool
  | .object _ | .array _ => true
  | _ => false

end Json

namespace Segment

def narrow (value : Json) (segment : Segment) : Segment :=
  match segment.filter with
  | some filter => { segment with filter := some (filter.both (.valueEquals value)) }
  | none => { segment with filter := some (.valueEquals value) }

end Segment

def Path.narrow (value : Json) (path : Path) : Option Path :=
  path.split?.map fun (base, last) => ⟨base.schema, base.segments ++ [last.narrow value]⟩

/-- The payload of a remove from a multi-valued attribute, which names an element. -/
def Patch.elementPayload? (patch : Patch) (definition : Attribute) : Option Json :=
  match patch.value, patch.kind? with
  | some value, some .remove =>
    if value.isNull || !definition.multiValued then none else some value
  | _, _ => none

/-- A remove by value as a remove through a filter at the resolved path; `none` for any other
patch. -/
def Patch.removeByValue (patch : Patch) (path : Path) (definition : Attribute) :
    Except PatchError (Option Patch) :=
  match patch.elementPayload? definition with
  | none => .ok none
  | some payload =>
    match payload.unwrap.filter Json.isScalar with
    | some value => .ok ((path.narrow value).map fun narrowed => .remove narrowed.render)
    | none => .error (.invalidValue patch.path .noScalarPayload)

namespace Attribute

def holdsPlainValue (definition : Attribute) : Bool :=
  !definition.multiValued && (definition.type == .boolean || definition.type == .string)

/-- A wrapped truth value may be spelled as a text, in this spelling only. -/
def coerce (definition : Attribute) (value : Json) : Json :=
  if definition.type = .boolean ∧ value = .string "True" then .bool true
  else if definition.type = .boolean ∧ value = .string "False" then .bool false
  else value

def normalize (definition : Attribute) (path : String) (value : Json) : Except PatchError Json :=
  if definition.holdsPlainValue && value.isWrapper then
    match value.unwrap with
    | some inner => .ok (definition.coerce inner)
    | none => .error (.invalidValue path (.notUnwrappable value))
  else .ok value

end Attribute
end Scim
