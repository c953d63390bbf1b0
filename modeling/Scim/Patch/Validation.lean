import Scim.Patch.Error

/-! Checks on a request before anything is applied. The first that fails is reported. -/
namespace Scim

namespace Patch

def hasValue (patch : Patch) : Bool :=
  match patch.value with
  | some value => !value.isNull
  | none => false

def hasObjectValue (patch : Patch) : Bool :=
  match patch.value with
  | some value => value.isObject
  | none => false

/-- An addition may go without a path if its value is an object. -/
def validate (index : Nat) (patch : Patch) : Except ValidationError Unit :=
  match patch.kind? with
  | none => .error (.invalidOperation index patch.op)
  | some .add =>
    if !patch.hasValue then .error (.missingValue index)
    else if patch.path.isEmpty && !patch.hasObjectValue then
      .error (.pathlessAddNotObject index)
    else .ok ()
  | some .replace =>
    if !patch.hasValue then .error (.missingValue index)
    else if patch.path.isEmpty then .error (.missingPath index)
    else .ok ()
  | some .remove => if patch.path.isEmpty then .error (.missingPath index) else .ok ()

end Patch

namespace Request

def validateFrom (index : Nat) : List Patch → Except ValidationError Unit
  | [] => .ok ()
  | patch :: rest => do
    patch.validate index
    validateFrom (index + 1) rest

def declaresSchema (request : Request) : Bool :=
  match request.schemas with
  | [urn] => decide (Caseless urn requestUrn)
  | _ => false

def validate (request : Request) : Except ValidationError Unit :=
  if !request.declaresSchema then .error (.unsupportedSchemas request.schemas)
  else if request.operations.isEmpty then .error .noOperations
  else validateFrom 0 request.operations

end Request
end Scim
