import Scim.Text.Quoted

/-! What can be wrong with the text of a path or filter, and where. A reader reports the text
that remains at the fault; the offset in the whole text follows from it. -/
namespace Scim

inductive SyntaxErrorKind where
  | unexpectedChar (found : Char)
  | unexpectedEnd
  | unknownOperator (word : String)
  | unclosedString
  | invalidEscape
  | invalidNumber
  | emptySegment
  | nestedFilter
  deriving DecidableEq

def SyntaxErrorKind.message : SyntaxErrorKind → String
  | .unexpectedChar found => "unexpected character " ++ Text.quotedChar found
  | .unexpectedEnd => "unexpected end of input"
  | .unknownOperator word => "unknown operator " ++ Text.quoted word
  | .unclosedString => "unterminated string literal"
  | .invalidEscape => "invalid escape sequence"
  | .invalidNumber => "invalid number"
  | .emptySegment => "empty attribute name"
  | .nestedFilter => "only one filter is allowed per path"

structure Fault where
  kind : SyntaxErrorKind
  rest : List Char
  deriving DecidableEq

def Fault.unexpected : List Char → Fault
  | [] => ⟨.unexpectedEnd, []⟩
  | c :: rest => ⟨.unexpectedChar c, c :: rest⟩

/-- A fault in `input`, `offset` bytes of UTF-8 from its start. -/
structure SyntaxError where
  kind : SyntaxErrorKind
  input : String
  offset : Nat
  deriving DecidableEq

def utf8Size : List Char → Nat
  | [] => 0
  | c :: rest => c.utf8Size + utf8Size rest

def Fault.toError (input : String) (fault : Fault) : SyntaxError :=
  ⟨fault.kind, input, utf8Size input.toList - utf8Size fault.rest⟩

def SyntaxError.message (error : SyntaxError) : String :=
  error.kind.message ++ " at offset " ++ toString error.offset ++ " in " ++
    Text.quoted error.input

end Scim
