import Scim.Json.Printer
import Scim.Patch.Basic
import Scim.Text.Fault

/-! What can be wrong with a request before it is applied, and with a patch when it is. -/
namespace Scim

inductive ValidationError where
  | unsupportedSchemas (found : List String)
  | noOperations
  | missingValue (index : Nat)
  | missingPath (index : Nat)
  | pathlessAddNotObject (index : Nat)
  | invalidOperation (index : Nat) (op : String)
  deriving DecidableEq

def ValidationError.message : ValidationError → String
  | unsupportedSchemas found =>
    "Invalid parameter: schemas must be exactly [" ++ requestUrn ++ "], got " ++
      Text.quotedList found
  | noOperations => "Invalid parameter: no operations"
  | missingValue index => "Invalid parameter: operation " ++ toString index ++ " has no value"
  | missingPath index => "Invalid parameter: operation " ++ toString index ++ " has no path"
  | pathlessAddNotObject index =>
    "Invalid parameter: operation " ++ toString index ++
      " adds without a path but its value is not an object"
  | invalidOperation index op =>
    "Invalid operation " ++ Text.quoted op ++ " at " ++ toString index ++
      ": must be one of [add|remove|replace]"

inductive ValueFault where
  | resourceNotObject (found : Json)
  | noScalarPayload
  | notUnwrappable (found : Json)
  deriving DecidableEq

def ValueFault.message : ValueFault → String
  | resourceNotObject found => "resource must be an object, got " ++ found.compact
  | noScalarPayload => "remove payload carries no scalar `value`"
  | notUnwrappable found =>
    "expected a scalar or an object with `value`, got " ++ found.compact

inductive PatchError where
  | parse (error : SyntaxError)
  | validation (error : ValidationError)
  | noAttribute (path : String)
  | invalidOperation (op : String)
  | missingPath (kind : OpKind)
  | missingValue (kind : OpKind)
  | pathlessAddNotObject
  | invalidValue (path : String) (fault : ValueFault)
  | invalidBase (path : String)
  | nonObjectElement (path : String)
  deriving DecidableEq

def PatchError.message : PatchError → String
  | parse error => error.message
  | validation error => error.message
  | noAttribute path => "No attribute found for path: " ++ path
  | invalidOperation op => "Invalid operation: " ++ op
  | missingPath kind => kind.word ++ " requires a path"
  | missingValue kind => kind.word ++ " requires a value"
  | pathlessAddNotObject => "Add without a path requires an object value"
  | invalidValue path fault => "Invalid value for " ++ path ++ ": " ++ fault.message
  | invalidBase path => "Base evaluated to neither an object nor an array: " ++ path
  | nonObjectElement path => "Array base contains a non-object element: " ++ path

end Scim
