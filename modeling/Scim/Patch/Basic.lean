import Scim.Json.Basic
import Scim.Text.Caseless

/-! Patches, and requests that hold several. The word of an operation is kept as it was given,
so that an unknown one can be reported. -/
namespace Scim

inductive OpKind where
  | add
  | remove
  | replace
  deriving DecidableEq

namespace OpKind

def word : OpKind → String
  | add => "add"
  | remove => "remove"
  | replace => "replace"

def all : List OpKind := [add, remove, replace]

def ofWord? (word : String) : Option OpKind :=
  all.find? fun kind => decide (Caseless word kind.word)

end OpKind

structure Patch where
  op : String
  path : String := ""
  value : Option Json := none
  deriving DecidableEq

namespace Patch

def kind? (patch : Patch) : Option OpKind := OpKind.ofWord? patch.op

def withValue (patch : Patch) (value : Json) : Patch := { patch with value := some value }

def add (path : String) (value : Json) : Patch := ⟨OpKind.add.word, path, some value⟩

def remove (path : String) : Patch := ⟨OpKind.remove.word, path, none⟩

end Patch

def requestUrn : String := "urn:ietf:params:scim:api:messages:2.0:PatchOp"

structure Request where
  schemas : List String := []
  operations : List Patch := []
  deriving DecidableEq

/-- How far payloads are understood that do not follow the protocol to the letter. -/
structure PatchOptions where
  /-- A remove from a multi-valued attribute with a payload removes the element of that value. -/
  removeByValue : Bool := true
  /-- A single-valued text or truth value may come wrapped in an object or array. -/
  normalizeValues : Bool := true
  deriving DecidableEq

end Scim
