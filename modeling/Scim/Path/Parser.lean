import Scim.Path.Basic
import Scim.Path.Urn
import Scim.Json.Basic
import Scim.Number.Numeral
import Scim.Text.Blank
import Scim.Text.Literal

/-! Reading paths and filters. In a filter `and` and `or` bind alike and group from the left,
and a comparison is an attribute, an operator word and, but for `pr`, a literal, with blanks
between them. A path holds at most one filter. -/
namespace Scim

def isNameChar (c : Char) : Bool := c.isAlphanum || c == '_' || c == '-' || c == '$'

def isAttributeChar (c : Char) : Bool := isNameChar c || c == '.' || c == ':'

namespace Filter

/-- Whole numerals that fit 64 bits with a sign are integers, minus zero among them. -/
def integers : IntegerRange := ⟨-0x8000000000000000, 0x7FFFFFFFFFFFFFFF, true⟩

/-- Names separated by points, `after` being the text that follows them all. -/
def splitNames (after dotted : List Char) : Except Fault (List String) :=
  let name := dotted.takeWhile (· != '.')
  if name.isEmpty then .error ⟨.emptySegment, dotted ++ after⟩
  else
    match h : dotted.dropWhile (· != '.') with
    | [] => .ok [String.ofList name]
    | _ :: more => do
      have : more.length < dotted.length := by
        have := length_dropWhile_le (· != '.') dotted
        rw [h, List.length_cons] at this
        omega
      let names ← splitNames after more
      .ok (String.ofList name :: names)
termination_by dotted.length

/-- The attribute of a comparison, which carries no filters. -/
def takeAttribute (text : List Char) : Except Fault (Taken Path text) :=
  match takeRun isAttributeChar text with
  | none => .error (.unexpected text)
  | some token => do
    let (urn, dotted) := splitUrn token.value
    let names ← splitNames token.rest dotted
    .ok (token.map fun _ => ⟨urn.map String.ofList, names.map fun name => ⟨name, none⟩⟩)

def takeBlank (text : List Char) : Except Fault (Taken (List Char) text) :=
  match takeRun Text.isBlank text with
  | some blank => .ok blank
  | none => .error (.unexpected text)

def takeOperator (text : List Char) : Except Fault (Taken CompareOp text) :=
  match takeRun Char.isAlpha text with
  | none => .error (.unexpected text)
  | some word =>
    match CompareOp.ofWord? (String.ofList word.value) with
    | some op => .ok (word.map fun _ => op)
    | none => .error ⟨.unknownOperator (String.ofList word.value), text⟩

def wordValue? (word : String) : Option Json :=
  if Caseless word "true" then some (.bool true)
  else if Caseless word "false" then some (.bool false)
  else if Caseless word "null" then some .null
  else none

def takeWordValue (text : List Char) : Except Fault (Taken Json text) :=
  match takeRun Char.isAlpha text with
  | none => .error (.unexpected text)
  | some word =>
    match wordValue? (String.ofList word.value) with
    | some value => .ok (word.map fun _ => value)
    | none => .error (.unexpected text)

def takeNumber (text : List Char) : Except Fault (Taken Json text) := do
  let numeral ← takeNumeral text
  match numeral.value.toNumber? integers Numeral.nearest? with
  | some value => .ok (numeral.map fun _ => .number value)
  | none => .error ⟨.invalidNumber, text⟩

def takeLiteral : (text : List Char) → Except Fault (Taken Json text)
  | '"' :: body => do
    let string ← Text.takeStringBody ('"' :: body) body
    .ok (string.map (.string <| String.ofList ·)).behind
  | c :: rest =>
    if c = '-' ∨ c.isDigit then takeNumber (c :: rest) else takeWordValue (c :: rest)
  | [] => .error (.unexpected [])

def takeComparison (text : List Char) : Except Fault (Taken Filter text) := do
  let path ← takeAttribute text
  have := path.shorter
  let before ← takeBlank path.rest
  have := before.shorter
  let op ← takeOperator before.rest
  have := op.shorter
  if op.value = .present then .ok ⟨.compare path.value .present .null, op.rest, by omega⟩
  else
    let blank ← takeBlank op.rest
    have := blank.shorter
    let literal ← takeLiteral blank.rest
    have := literal.shorter
    .ok ⟨.compare path.value op.value literal.value, literal.rest, by omega⟩

def startsBlank : List Char → Bool
  | c :: _ => Text.isBlank c
  | [] => false

def startsParenthesis : List Char → Bool
  | '(' :: _ => true
  | _ => false

/-- The word `not`, where a filter follows it. -/
def takeNot? (text : List Char) : Option (Taken (List Char) text) :=
  match takeRun Char.isAlpha text with
  | some word =>
    if Caseless (String.ofList word.value) "not" ∧
        (startsParenthesis word.rest ∨ startsBlank word.rest) then
      some word
    else none
  | none => none

def takeLogical? (text : List Char) : Option (Taken LogicalOp text) :=
  match takeRun Char.isAlpha text with
  | some word => (LogicalOp.ofWord? (String.ofList word.value)).map fun op => word.map fun _ => op
  | none => none

def join (first : Filter) (more : List (LogicalOp × Filter)) : Filter :=
  more.foldl (fun left next => .logical next.1 left next.2) first

theorem length_skipBlank_le (text : List Char) : (Text.skipBlank text).length ≤ text.length :=
  length_dropWhile_le _ _

mutual

def takeOperand (text : List Char) : Except Fault (Taken Filter text) :=
  have blanks := length_skipBlank_le text
  match h : Text.skipBlank text with
  | '(' :: inside => do
    let inner ← takeExpression inside
    have := inner.shorter
    have := length_skipBlank_le inner.rest
    match g : Text.skipBlank inner.rest with
    | ')' :: rest => .ok ⟨inner.value, rest, by simp only [h, g, List.length_cons] at *; omega⟩
    | found => .error (.unexpected found)
  | start =>
    match takeNot? start with
    | some word => do
      have := word.shorter
      let inner ← takeOperand word.rest
      .ok ((inner.map .not).widen (by simp only [h] at blanks; omega))
    | none => do
      let comparison ← takeComparison start
      .ok (comparison.widen (by simpa only [h] using blanks))
termination_by 3 * text.length
decreasing_by all_goals simp only [h, List.length_cons] at *; omega

def takeExpression (text : List Char) : Except Fault (Taken Filter text) := do
  let first ← takeOperand text
  have := first.shorter
  let more ← takeMore first.rest
  .ok ⟨join first.value more.value, more.rest, by have := more.noLonger; omega⟩
termination_by 3 * text.length + 1

/-- Further operands, each after `and` or `or`, and the blanks that follow. -/
def takeMore (text : List Char) : Except Fault (Passed (List (LogicalOp × Filter)) text) :=
  have blanks := length_skipBlank_le text
  match takeLogical? (Text.skipBlank text) with
  | none => .ok ⟨[], Text.skipBlank text, blanks⟩
  | some word =>
    if startsParenthesis word.rest ∨ startsBlank word.rest then do
      have := word.shorter
      let operand ← takeOperand word.rest
      have := operand.shorter
      let more ← takeMore operand.rest
      .ok ⟨(word.value, operand.value) :: more.value, more.rest,
        by have := more.noLonger; omega⟩
    else .error (.unexpected word.rest)
termination_by 3 * text.length + 2

end

def parse (text : String) : Except SyntaxError Filter :=
  let read : Except Fault Filter := do
    let filter ← takeExpression text.toList
    match Text.skipBlank filter.rest with
    | [] => .ok filter.value
    | found => .error (.unexpected found)
  read.mapError (Fault.toError text)

end Filter

namespace Path

/-- The filter of a segment, in brackets; `filtered` tells that the path has had one. -/
def takeSelection (filtered : Bool) :
    (text : List Char) → Except Fault (Option (Taken Filter text))
  | '[' :: inside =>
    if filtered then .error ⟨.nestedFilter, '[' :: inside⟩
    else do
      let filter ← Filter.takeExpression inside
      have := filter.shorter
      have := Filter.length_skipBlank_le filter.rest
      match h : Text.skipBlank filter.rest with
      | ']' :: rest =>
        .ok (some ⟨filter.value, rest, by simp only [h, List.length_cons] at *; omega⟩)
      | found => .error (.unexpected found)
  | _ => .ok none

def takeSegments (filtered : Bool) (text : List Char) : Except Fault (List Segment) :=
  match takeRun isNameChar text with
  | none => .error ⟨.emptySegment, text⟩
  | some name => do
    let selection ← takeSelection filtered name.rest
    let segment : Segment := ⟨String.ofList name.value, selection.map (·.value)⟩
    match h : Taken.remaining selection with
    | [] => .ok [segment]
    | '.' :: more =>
      have : more.length < text.length := by
        have := name.shorter
        have := Taken.remaining_length_le selection
        rw [h, List.length_cons] at this
        omega
      let segments ← takeSegments (filtered || selection.isSome) more
      .ok (segment :: segments)
    | found => .error (.unexpected found)
termination_by text.length

/-- The path that a whole text spells. The URN may hold points, so it is cut off first, from the
text ahead of any filter. -/
def parse (text : String) : Except SyntaxError Path :=
  if text.isEmpty then .ok root
  else
    let (urn, body) := splitUrn (text.toList.takeWhile (· != '['))
    let read := takeSegments false (body ++ text.toList.dropWhile (· != '['))
    (read.map fun segments => ⟨urn.map String.ofList, segments⟩).mapError (Fault.toError text)

end Path
end Scim
