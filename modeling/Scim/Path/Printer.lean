import Scim.Json.Printer
import Scim.Path.Basic

/-! The text of paths and filters. Parentheses stand only where a reader that groups from the
left needs them: around a logical right operand and after `not`. -/
namespace Scim

def Filter.isLogical : Filter → Bool
  | .logical .. => true
  | _ => false

mutual

def Filter.chars : Filter → List Char
  | .compare path op value =>
    path.chars ++ ' ' :: op.word.toList ++
      (if op = .present then [] else ' ' :: value.chars)
  | .logical op left right =>
    left.chars ++ ' ' :: op.word.toList ++
      ' ' :: (if right.isLogical then '(' :: right.chars ++ [')'] else right.chars)
  | .not inner => "not (".toList ++ inner.chars ++ [')']

def Segment.chars : Segment → List Char
  | ⟨name, none⟩ => name.toList
  | ⟨name, some filter⟩ => name.toList ++ '[' :: filter.chars ++ [']']

def Path.chars : Path → List Char
  | ⟨none, segments⟩ => Path.segmentsChars segments
  | ⟨some schema, segments⟩ => schema.toList ++ ':' :: Path.segmentsChars segments

def Path.segmentsChars : List Segment → List Char
  | [] => []
  | segment :: rest => segment.chars ++ Path.moreSegmentsChars rest

def Path.moreSegmentsChars : List Segment → List Char
  | [] => []
  | segment :: rest => '.' :: segment.chars ++ Path.moreSegmentsChars rest

end

def Filter.render (filter : Filter) : String := String.ofList filter.chars

def Segment.render (segment : Segment) : String := String.ofList segment.chars

def Path.render (path : Path) : String := String.ofList path.chars

end Scim
