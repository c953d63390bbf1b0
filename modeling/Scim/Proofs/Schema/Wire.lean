import Scim.Schema.Wire

/-! Definitions and schemas are read back from the JSON they are written to. -/
namespace Scim

namespace Fields

@[simp] theorem get?_append (fields more : Fields) (key : String) :
    (fields ++ more).get? key = (fields.get? key).or (more.get? key) := by
  simp only [get?, List.find?_append]
  cases List.find? (fun field => field.1 == key) fields <;> rfl

@[simp] theorem get?_fieldIf (written : Bool) (name : String) (value : Json) (key : String) :
    (fieldIf written name value).get? key =
      if name = key then if written then some value else none else none := by
  cases written <;> simp [fieldIf, get?_cons]

@[simp] theorem get?_textField (name : String) (text : Option String) (key : String) :
    (textField name text).get? key = if name = key then text.map .string else none := by
  cases text <;> simp [textField, get?_cons]

theorem optional_eq {α : Type} (fields : Fields) (name : String) (default : α)
    (decode : Json → Option α) :
    fields.optional name default decode = ((fields.get? name).map decode).getD (some default) := by
  unfold optional
  cases fields.get? name <;> rfl

/-- Leaving out an empty list loses nothing, since it is the default of its field. -/
theorem decode_unless_empty {α : Type} {values : List α} {value : Json}
    (decode : Json → Option (List α)) (decoded : decode value = some values) :
    ((if !values.isEmpty then some value else none).map decode).getD (some []) = some values := by
  cases values <;> simp [decoded]

theorem decode_textField (text : Option String) :
    ((text.map Json.string).map Json.optionalText?).getD (some none) = some text := by
  cases text <;> rfl

end Fields

theorem mapM_map_eq_some {α β : Type} {encode : α → β} {decode : β → Option α} {items : List α}
    (inverse : ∀ item ∈ items, decode (encode item) = some item) :
    (items.map encode).mapM decode = some items := by
  induction items with
  | nil => rfl
  | cons item rest ih =>
    obtain ⟨first, later⟩ := List.forall_mem_cons.mp inverse
    simp [first, ih later]

theorem Json.texts?_ofTexts (texts : List String) : (Json.ofTexts texts).texts? = some texts :=
  mapM_map_eq_some fun _ _ => rfl

theorem AttributeType.ofToken?_token (type : AttributeType) : ofToken? type.token = some type := by
  cases type <;> decide

theorem Mutability.ofToken?_token (value : Mutability) : ofToken? value.token = some value := by
  cases value <;> decide

theorem Returned.ofToken?_token (value : Returned) : ofToken? value.token = some value := by
  cases value <;> decide

theorem Uniqueness.ofToken?_token (value : Uniqueness) : ofToken? value.token = some value := by
  cases value <;> decide

namespace Attribute

/-- Sub-attributes are decoded like any other optional field; only the recursion needs to know
that they are smaller. -/
theorem ofJson?_eq (json : Json) :
    ofJson? json = (json.record? fieldNames).bind fun fields => (do
      let name ← fields.required "name" Json.text?
      let type ← fields.optional "type" .string fun value =>
        value.token?.bind AttributeType.ofToken?
      let multiValued ← fields.optional "multiValued" false Json.bool?
      let subAttributes ← fields.optional "subAttributes" [] fun value =>
        value.array?.bind listOfJson?
      let description ← fields.optional "description" none Json.optionalText?
      let required ← fields.optional "required" false Json.bool?
      let caseExact ← fields.optional "caseExact" false Json.bool?
      let mutability ← fields.optional "mutability" .readWrite fun value =>
        value.token?.bind Mutability.ofToken?
      let returned ← fields.optional "returned" .byDefault fun value =>
        value.token?.bind Returned.ofToken?
      let uniqueness ← fields.optional "uniqueness" .none fun value =>
        value.token?.bind Uniqueness.ofToken?
      let canonicalValues ← fields.optional "canonicalValues" [] Json.texts?
      let referenceTypes ← fields.optional "referenceTypes" [] Json.texts?
      some ⟨name, type, multiValued, subAttributes, description, required, caseExact, mutability,
        returned, uniqueness, canonicalValues, referenceTypes⟩) := by
  rw [ofJson?]
  split
  next absent => simp [absent]
  next fields record =>
    simp only [record, Option.bind_some]
    refine bind_congr fun name => bind_congr fun type => bind_congr fun multiValued => ?_
    split
    next absent => simp [Fields.optional_eq, absent]
    next items found => simp [Fields.optional_eq, found, Json.array?]
    next value other found =>
      have refused : value.array? = none := by
        cases value with
        | array items => exact absurd rfl (other items)
        | _ => rfl
      simp [Fields.optional_eq, found, refused]

mutual

theorem ofJson?_toJson : ∀ definition : Attribute, ofJson? definition.toJson = some definition
  | ⟨name, type, multiValued, subAttributes, description, required, caseExact, mutability,
      returned, uniqueness, canonicalValues, referenceTypes⟩ => by
    have listed : (Json.array (listToJson subAttributes)).array?.bind listOfJson? =
        some subAttributes := listOfJson?_listToJson subAttributes
    have nested := Fields.decode_unless_empty (fun value => value.array?.bind listOfJson?) listed
    have canonical := Fields.decode_unless_empty _ (Json.texts?_ofTexts canonicalValues)
    have references := Fields.decode_unless_empty _ (Json.texts?_ofTexts referenceTypes)
    rw [ofJson?_eq, toJson]
    simp only [Json.record?, Fields.required, Fields.optional_eq, Fields.get?_append,
      Fields.get?_cons, Fields.get?_nil, Fields.get?_fieldIf, Fields.get?_textField, reduceIte,
      String.reduceEq, Option.or_none, Option.none_or, Option.map_some, Option.getD_some,
      Option.bind_some, Option.bind_eq_bind, Json.text?, Json.token?, Json.bool?,
      AttributeType.ofToken?_token, Mutability.ofToken?_token, Returned.ofToken?_token,
      Uniqueness.ofToken?_token, Fields.decode_textField, nested, canonical, references]

theorem listOfJson?_listToJson :
    ∀ definitions : List Attribute, listOfJson? (listToJson definitions) = some definitions
  | [] => by rw [listToJson, listOfJson?]
  | definition :: rest => by
    rw [listToJson, listOfJson?, ofJson?_toJson definition, listOfJson?_listToJson rest]
    rfl

end

end Attribute

theorem Schema.ofJson?_toJson (schema : Schema) : ofJson? schema.toJson = some schema := by
  simp only [ofJson?, toJson, Json.record?, Fields.required, Fields.optional_eq, Fields.get?_append,
    Fields.get?_cons, Fields.get?_nil, Fields.get?_textField, reduceIte, String.reduceEq,
    Option.or_none, Option.none_or, Option.map_some, Option.getD_some, Option.bind_some,
    Option.bind_eq_bind, Json.text?, Json.array?, Fields.decode_textField,
    Attribute.listOfJson?_listToJson]

namespace ResourceType

theorem ofJson?_toJson (type : ResourceType) :
    ofJson? type.toJson = some { type with extensions := [] } := by
  simp [ofJson?, toJson, Schema.ofJson?_toJson]

theorem extensions_of_ofJson? {json : Json} {type : ResourceType}
    (decoded : ofJson? json = some type) : type.extensions = [] := by
  simp only [ofJson?, Option.map_eq_some_iff] at decoded
  obtain ⟨core, -, rfl⟩ := decoded
  rfl

end ResourceType
end Scim
