import Scim.Schema.Attribute

/-! The attributes of every resource. They belong to no schema, so their full name is without a
URN. -/
namespace Scim

def metaAttribute : Attribute where
  name := "meta"
  type := .complex
  mutability := .readOnly
  subAttributes := [
    { name := "resourceType", caseExact := true, mutability := .readOnly },
    { name := "created", type := .dateTime, mutability := .readOnly },
    { name := "lastModified", type := .dateTime, mutability := .readOnly },
    { name := "location", type := .reference, caseExact := true, mutability := .readOnly },
    { name := "version", caseExact := true, mutability := .readOnly }]

def commonAttributes : List Attribute := [
  { name := "id", caseExact := true, mutability := .readOnly },
  { name := "externalId", caseExact := true },
  { name := "schemas", type := .reference, multiValued := true, caseExact := true },
  metaAttribute]

end Scim
