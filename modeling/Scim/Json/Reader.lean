import Scim.Json.Fields
import Scim.Number.Numeral
import Scim.Text.Literal

/-! Reading JSON text. Whole numerals that fit 64 bits, signed or not, are integers; the others
are doubles, minus zero among them, and are read by scaling. Of a repeated key the last value
counts. -/
namespace Scim.Json

def integers : IntegerRange := ⟨-0x8000000000000000, 0xFFFFFFFFFFFFFFFF, false⟩

def isSpace (c : Char) : Bool := c == ' ' || c == '\t' || c == '\n' || c == '\r'

def skipSpace (text : List Char) : List Char := text.dropWhile isSpace

theorem length_skipSpace_le (text : List Char) : (skipSpace text).length ≤ text.length :=
  length_dropWhile_le _ _

def wellGrouped (n : Numeral) : Bool :=
  match n.whole with
  | '0' :: _ :: _ => false
  | _ => true

def takeNumber (text : List Char) : Except Fault (Taken Json text) := do
  let numeral ← takeNumeral text
  if wellGrouped numeral.value then
    match numeral.value.toNumber? integers Numeral.scaled? with
    | some value => .ok (numeral.map fun _ => .number value)
    | none => .error ⟨.invalidNumber, text⟩
  else .error ⟨.invalidNumber, text⟩

def takeWord : (text : List Char) → Except Fault (Taken Json text)
  | 'n' :: 'u' :: 'l' :: 'l' :: _ => .ok (Taken.ofHead .null).behind.behind.behind
  | 't' :: 'r' :: 'u' :: 'e' :: _ => .ok (Taken.ofHead (.bool true)).behind.behind.behind
  | 'f' :: 'a' :: 'l' :: 's' :: 'e' :: _ =>
    .ok (Taken.ofHead (.bool false)).behind.behind.behind.behind
  | text => .error (.unexpected text)

mutual

def takeValue (text : List Char) : Except Fault (Taken Json text) :=
  match text with
  | '"' :: body => do
    let string ← Text.takeStringBody ('"' :: body) body
    .ok (string.map (.string <| String.ofList ·)).behind
  | '[' :: inside =>
    have inner := length_skipSpace_le inside
    match h : skipSpace inside with
    | ']' :: rest => .ok ⟨.array [], rest, by simp only [h, List.length_cons] at *; omega⟩
    | first => do
      let items ← takeItems first
      .ok ((items.map .array).widen (by simp only [h, List.length_cons] at *; omega))
  | '{' :: inside =>
    have inner := length_skipSpace_le inside
    match h : skipSpace inside with
    | '}' :: rest => .ok ⟨.object [], rest, by simp only [h, List.length_cons] at *; omega⟩
    | first => do
      let fields ← takeFields first
      .ok ((fields.map fun fields => .object (Fields.ofList fields)).widen
        (by simp only [h, List.length_cons] at *; omega))
  | c :: rest =>
    if c = '-' ∨ c.isDigit then takeNumber (c :: rest) else takeWord (c :: rest)
  | [] => .error (.unexpected [])
termination_by 2 * text.length
decreasing_by all_goals simp only [h, List.length_cons] at *; omega

def takeItems (text : List Char) : Except Fault (Taken (List Json) text) := do
  let item ← takeValue text
  have := item.shorter
  have := length_skipSpace_le item.rest
  match h : skipSpace item.rest with
  | ']' :: rest => .ok ⟨[item.value], rest, by simp only [h, List.length_cons] at *; omega⟩
  | ',' :: more =>
    have := length_skipSpace_le more
    let items ← takeItems (skipSpace more)
    .ok ((items.map (item.value :: ·)).widen (by simp only [h, List.length_cons] at *; omega))
  | found => .error (.unexpected found)
termination_by 2 * text.length + 1
decreasing_by
  · omega
  · simp only [h, List.length_cons] at *; omega

def takeFields (text : List Char) : Except Fault (Taken (List (String × Json)) text) :=
  match text with
  | '"' :: body => do
    let key ← Text.takeStringBody ('"' :: body) body
    have := key.shorter
    have := length_skipSpace_le key.rest
    match h : skipSpace key.rest with
    | ':' :: start =>
      have := length_skipSpace_le start
      let value ← takeValue (skipSpace start)
      let field := (String.ofList key.value, value.value)
      have := value.shorter
      have := length_skipSpace_le value.rest
      match g : skipSpace value.rest with
      | '}' :: rest => .ok ⟨[field], rest, by simp only [h, g, List.length_cons] at *; omega⟩
      | ',' :: more =>
        have := length_skipSpace_le more
        let fields ← takeFields (skipSpace more)
        .ok ((fields.map (field :: ·)).widen (by simp only [h, g, List.length_cons] at *; omega))
      | found => .error (.unexpected found)
    | found => .error (.unexpected found)
  | found => .error (.unexpected found)
termination_by 2 * text.length + 1
decreasing_by
  · simp only [h, List.length_cons] at *; omega
  · simp only [h, g, List.length_cons] at *; omega

end

def ofText (text : String) : Except SyntaxError Json :=
  let read : Except Fault Json := do
    let value ← takeValue (skipSpace text.toList)
    match skipSpace value.rest with
    | [] => .ok value.value
    | found => .error (.unexpected found)
  read.mapError (Fault.toError text)

end Scim.Json
