import Scim.Schema.Attribute

/-! Schemas, and resource types made of a core schema and extensions. Attributes of an extension
stand in a document under the extension's URN. -/
namespace Scim

structure Schema where
  id : String
  name : Option String := none
  description : Option String := none
  attributes : List Attribute := []
  deriving DecidableEq

def Schema.attribute? (schema : Schema) (name : String) : Option Attribute :=
  findAttribute? schema.attributes name

structure ResourceType where
  core : Schema
  extensions : List Schema := []
  deriving DecidableEq

namespace ResourceType

def attach (type : ResourceType) (schema : Schema) : ResourceType :=
  { type with extensions := type.extensions ++ [schema] }

def extension? (type : ResourceType) (urn : String) : Option Schema :=
  type.extensions.find? fun schema => decide (Caseless schema.id urn)

/-- The core schema or the first extension with this URN. -/
def schema? (type : ResourceType) (urn : String) : Option Schema :=
  if Caseless type.core.id urn then some type.core else type.extension? urn

def ids (type : ResourceType) : List String := type.core.id :: type.extensions.map (·.id)

def Distinct (type : ResourceType) : Prop := type.ids.Pairwise fun a b => ¬ Caseless a b

end ResourceType
end Scim
