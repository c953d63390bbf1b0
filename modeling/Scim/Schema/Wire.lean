import Scim.Json.Fields
import Scim.Schema.Basic

/-! The JSON form of attributes and schemas. A record is read from an object by the names of its
fields, all others being ignored, or from an array by their order; a field that is missing takes
its default if it has one. Empty lists and absent texts are not written. -/
namespace Scim

namespace Json

def record? (names : List String) : Json → Option Fields
  | .object fields => some fields
  | .array items => if items.length ≤ names.length then some (names.zip items) else none
  | _ => none

def text? : Json → Option String
  | .string text => some text
  | _ => none

def bool? : Json → Option Bool
  | .bool value => some value
  | _ => none

def array? : Json → Option (List Json)
  | .array items => some items
  | _ => none

def optionalText? : Json → Option (Option String)
  | .null => some none
  | .string text => some (some text)
  | _ => none

def texts? (value : Json) : Option (List String) := value.array?.bind (·.mapM text?)

/-- One word of a set; it may also be written as the only key of an object, with null. -/
def token? : Json → Option String
  | .string token => some token
  | .object [(token, .null)] => some token
  | _ => none

def ofTexts (texts : List String) : Json := .array (texts.map .string)

end Json

namespace Fields

def required {α : Type} (fields : Fields) (name : String) (decode : Json → Option α) : Option α :=
  (fields.get? name).bind decode

def optional {α : Type} (fields : Fields) (name : String) (default : α)
    (decode : Json → Option α) : Option α :=
  match fields.get? name with
  | some value => decode value
  | none => some default

end Fields

def fieldIf (written : Bool) (name : String) (value : Json) : Fields :=
  if written then [(name, value)] else []

def textField (name : String) : Option String → Fields
  | some text => [(name, .string text)]
  | none => []

theorem Json.sizeOf_lt_of_record {names : List String} {json value : Json} {fields : Fields}
    {key : String} (h : json.record? names = some fields) (g : fields.get? key = some value) :
    sizeOf value < sizeOf json := by
  have member := Fields.mem_of_get? g
  cases json with
  | object entries =>
    simp only [record?, Option.some.injEq] at h
    subst h
    have := List.sizeOf_lt_of_mem member
    simp at this ⊢
    omega
  | array items =>
    simp only [record?] at h
    split at h
    · simp only [Option.some.injEq] at h
      subst h
      have := List.sizeOf_lt_of_mem (List.of_mem_zip member).2
      simp
      omega
    · simp at h
  | _ => simp [record?] at h

namespace Attribute

def fieldNames : List String :=
  ["name", "type", "multiValued", "subAttributes", "description", "required", "caseExact",
    "mutability", "returned", "uniqueness", "canonicalValues", "referenceTypes"]

mutual

def toJson : Attribute → Json
  | ⟨name, type, multiValued, subAttributes, description, required, caseExact, mutability,
      returned, uniqueness, canonicalValues, referenceTypes⟩ =>
    .object <|
      [("name", .string name), ("type", .string type.token), ("multiValued", .bool multiValued)] ++
      fieldIf (!subAttributes.isEmpty) "subAttributes" (.array (listToJson subAttributes)) ++
      textField "description" description ++
      [("required", .bool required), ("caseExact", .bool caseExact),
        ("mutability", .string mutability.token), ("returned", .string returned.token),
        ("uniqueness", .string uniqueness.token)] ++
      fieldIf (!canonicalValues.isEmpty) "canonicalValues" (.ofTexts canonicalValues) ++
      fieldIf (!referenceTypes.isEmpty) "referenceTypes" (.ofTexts referenceTypes)

def listToJson : List Attribute → List Json
  | [] => []
  | definition :: rest => definition.toJson :: listToJson rest

end

mutual

def ofJson? (json : Json) : Option Attribute :=
  match h : json.record? fieldNames with
  | none => none
  | some fields => do
    let name ← fields.required "name" Json.text?
    let type ← fields.optional "type" .string fun value =>
      value.token?.bind AttributeType.ofToken?
    let multiValued ← fields.optional "multiValued" false Json.bool?
    let subAttributes ← match g : fields.get? "subAttributes" with
      | none => some []
      | some (.array items) =>
        have : sizeOf items < sizeOf json := by
          have := Json.sizeOf_lt_of_record h g
          simp at this
          omega
        listOfJson? items
      | some _ => none
    let description ← fields.optional "description" none Json.optionalText?
    let required ← fields.optional "required" false Json.bool?
    let caseExact ← fields.optional "caseExact" false Json.bool?
    let mutability ← fields.optional "mutability" .readWrite fun value =>
      value.token?.bind Mutability.ofToken?
    let returned ← fields.optional "returned" .byDefault fun value =>
      value.token?.bind Returned.ofToken?
    let uniqueness ← fields.optional "uniqueness" .none fun value =>
      value.token?.bind Uniqueness.ofToken?
    let canonicalValues ← fields.optional "canonicalValues" [] Json.texts?
    let referenceTypes ← fields.optional "referenceTypes" [] Json.texts?
    some ⟨name, type, multiValued, subAttributes, description, required, caseExact, mutability,
      returned, uniqueness, canonicalValues, referenceTypes⟩
termination_by sizeOf json

def listOfJson? (items : List Json) : Option (List Attribute) :=
  match items with
  | [] => some []
  | item :: rest => do
    let definition ← ofJson? item
    let attributes ← listOfJson? rest
    some (definition :: attributes)
termination_by sizeOf items

end

end Attribute

namespace Schema

def fieldNames : List String := ["id", "name", "description", "attributes"]

def toJson (schema : Schema) : Json :=
  .object <|
    [("id", .string schema.id)] ++ textField "name" schema.name ++
    textField "description" schema.description ++
    [("attributes", .array (Attribute.listToJson schema.attributes))]

def ofJson? (json : Json) : Option Schema := do
  let fields ← json.record? fieldNames
  let id ← fields.required "id" Json.text?
  let name ← fields.optional "name" none Json.optionalText?
  let description ← fields.optional "description" none Json.optionalText?
  let attributes ← fields.optional "attributes" [] fun value =>
    value.array?.bind Attribute.listOfJson?
  some ⟨id, name, description, attributes⟩

end Schema

namespace ResourceType

/-- Extensions have documents of their own. -/
def toJson (type : ResourceType) : Json := type.core.toJson

def ofJson? (json : Json) : Option ResourceType :=
  (Schema.ofJson? json).map fun core => { core }

end ResourceType
end Scim
