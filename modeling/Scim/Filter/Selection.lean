import Scim.Json.Fields
import Scim.Path.Basic

/-! The values a path reaches in a JSON value. Arrays are looked through, on the way and at the
end, and null counts as absent. -/
namespace Scim

namespace Json

mutual

/-- The values under a name: of an object the field, of an array those of its items. Any other
value but null is itself under the name `value`. -/
def children (name : String) : Json → List Json
  | .object fields => (Fields.find? fields name).toList
  | .array items => itemChildren name items
  | .null => []
  | .bool value => if Caseless name "value" then [.bool value] else []
  | .number value => if Caseless name "value" then [.number value] else []
  | .string text => if Caseless name "value" then [.string text] else []

def itemChildren (name : String) : List Json → List Json
  | [] => []
  | item :: rest => item.children name ++ itemChildren name rest

end

def present : Json → List Json
  | .null => []
  | .array items => items.filter fun item => !item.isNull
  | value => [value]

end Json

namespace Path

/-- Where a path starts: under the URN it is qualified by, where the document has that key. -/
def start (path : Path) (fragment : Json) : Json :=
  match path.schema, fragment with
  | some urn, .object fields => (Fields.find? fields urn).getD fragment
  | _, _ => fragment

def select (path : Path) (fragment : Json) : List Json :=
  (path.names.foldl (fun reached name => reached.flatMap (Json.children name))
    [path.start fragment]).flatMap Json.present

end Path
end Scim
