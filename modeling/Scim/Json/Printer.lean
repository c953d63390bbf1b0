import Scim.Json.Basic
import Scim.Number.DecimalText

/-! The compact text of JSON values: no blanks, every character as itself but quotes,
backslashes and controls. -/
namespace Scim

namespace Number

/-- Doubles are positional from 10⁻⁵ up to 10¹⁶. -/
def layout : DecimalLayout := ⟨-5, 15⟩

def chars : Number → List Char
  | .int value => (if value < 0 then ['-'] else []) ++ Nat.toDigits 10 value.natAbs
  | .double value => layout.writeDouble value

end Number

namespace Json

def controlEscape (c : Char) : List Char :=
  ['\\', 'u', '0', '0', Nat.digitChar (c.toNat / 16), Nat.digitChar (c.toNat % 16)]

def escapeChar (c : Char) : List Char :=
  if c = '"' ∨ c = '\\' then ['\\', c]
  else if c = '\x08' then ['\\', 'b']
  else if c = '\x0c' then ['\\', 'f']
  else if c = '\n' then ['\\', 'n']
  else if c = '\r' then ['\\', 'r']
  else if c = '\t' then ['\\', 't']
  else if c.toNat < 0x20 then controlEscape c
  else [c]

def stringChars (text : String) : List Char :=
  '"' :: text.toList.flatMap escapeChar ++ ['"']

mutual

def chars : Json → List Char
  | .null => "null".toList
  | .bool true => "true".toList
  | .bool false => "false".toList
  | .number value => value.chars
  | .string text => stringChars text
  | .array items => '[' :: itemsChars items ++ [']']
  | .object fields => '{' :: fieldsChars fields ++ ['}']

def itemsChars : List Json → List Char
  | [] => []
  | item :: rest => item.chars ++ moreItemsChars rest

def moreItemsChars : List Json → List Char
  | [] => []
  | item :: rest => ',' :: item.chars ++ moreItemsChars rest

def fieldsChars : List (String × Json) → List Char
  | [] => []
  | (key, value) :: rest => stringChars key ++ ':' :: value.chars ++ moreFieldsChars rest

def moreFieldsChars : List (String × Json) → List Char
  | [] => []
  | (key, value) :: rest =>
    ',' :: stringChars key ++ ':' :: value.chars ++ moreFieldsChars rest

end

def compact (value : Json) : String := String.ofList value.chars

end Json
end Scim
