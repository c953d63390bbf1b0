import Scim.Filter.Evaluation

/-! The value of a multi-valued attribute: a list of elements. -/
namespace Scim

structure MultiValued where
  items : List Json
  deriving DecidableEq

namespace MultiValued

/-- The elements that a value adds: those of an array, else the value itself. -/
def elementsOf : Json → List Json
  | .array items => items
  | value => [value]

/-- What a field holds already. A lone value is a single element, and null is none. -/
def ofField : Option Json → MultiValued
  | none | some .null => ⟨[]⟩
  | some value => ⟨elementsOf value⟩

/-- Appends a value, an array by its elements. -/
def add (collection : MultiValued) (value : Json) : MultiValued :=
  ⟨collection.items ++ elementsOf value⟩

def filter (collection : MultiValued) (condition : Filter) (scope : Scope) : MultiValued :=
  ⟨collection.items.filter fun item => condition.holds scope item⟩

def isEmpty (collection : MultiValued) : Bool := collection.items.isEmpty

end MultiValued
end Scim
