import Scim.Patch.Basic
import Scim.Schema.Wire

/-! The JSON form of patches and requests. Null for a value means that there is none. -/
namespace Scim

def Json.optionalValue? : Json → Option (Option Json)
  | .null => some none
  | value => some (some value)

namespace Patch

def fieldNames : List String := ["op", "path", "value"]

def toJson (patch : Patch) : Json :=
  .object <|
    [("op", .string patch.op)] ++ fieldIf (!patch.path.isEmpty) "path" (.string patch.path) ++
    (match patch.value with
      | some value => [("value", value)]
      | none => [])

def ofJson? (json : Json) : Option Patch := do
  let fields ← json.record? fieldNames
  let op ← fields.required "op" Json.text?
  let path ← fields.optional "path" "" Json.text?
  let value ← fields.optional "value" none Json.optionalValue?
  some ⟨op, path, value⟩

end Patch

namespace Request

def fieldNames : List String := ["schemas", "Operations"]

def toJson (request : Request) : Json :=
  .object [("schemas", .ofTexts request.schemas),
    ("Operations", .array (request.operations.map Patch.toJson))]

def ofJson? (json : Json) : Option Request := do
  let fields ← json.record? fieldNames
  let schemas ← fields.optional "schemas" [] Json.texts?
  let operations ← fields.optional "Operations" [] fun value =>
    value.array?.bind (·.mapM Patch.ofJson?)
  some ⟨schemas, operations⟩

end Request
end Scim
