import Scim.Text.Scan

/-! String literals: characters between double quotes, with backslash escapes. -/
namespace Scim.Text

def hexDigit? (c : Char) : Option Nat :=
  if c.isDigit then some (c.toNat - '0'.toNat)
  else if 'a' ≤ c ∧ c ≤ 'f' then some (c.toNat - 'a'.toNat + 10)
  else if 'A' ≤ c ∧ c ≤ 'F' then some (c.toNat - 'A'.toNat + 10)
  else none

def shortEscape? : Char → Option Char
  | '"' => some '"'
  | '\\' => some '\\'
  | '/' => some '/'
  | 'b' => some '\x08'
  | 'f' => some '\x0c'
  | 'n' => some '\n'
  | 'r' => some '\r'
  | 't' => some '\t'
  | _ => none

def takeHex4 : (text : List Char) → Except Fault (Taken Nat text)
  | a :: b :: c :: d :: rest =>
    match hexDigit? a, hexDigit? b, hexDigit? c, hexDigit? d with
    | some p, some q, some r, some s =>
      .ok (Taken.ofHead (((p * 16 + q) * 16 + r) * 16 + s)).behind.behind.behind
    | _, _, _, _ => .error ⟨.invalidEscape, a :: b :: c :: d :: rest⟩
  | text => .error ⟨.invalidEscape, text⟩

def isHighSurrogate (code : Nat) : Bool := 0xD800 ≤ code && code < 0xDC00
def isLowSurrogate (code : Nat) : Bool := 0xDC00 ≤ code && code < 0xE000

/-- What follows `\u`: one code, or a high surrogate and a second escape with a low one. -/
def takeUnicode (text : List Char) : Except Fault (Taken Char text) := do
  let high ← takeHex4 text
  if isHighSurrogate high.value then
    match h : high.rest with
    | '\\' :: 'u' :: second =>
      let low ← takeHex4 second
      if isLowSurrogate low.value then
        .ok ⟨Char.ofNat (0x10000 + (high.value - 0xD800) * 0x400 + (low.value - 0xDC00)),
          low.rest, by
            have := high.shorter
            have := low.shorter
            simp only [h, List.length_cons] at *
            omega⟩
      else .error ⟨.invalidEscape, low.rest⟩
    | rest => .error ⟨.invalidEscape, rest⟩
  else if isLowSurrogate high.value then .error ⟨.invalidEscape, high.rest⟩
  else .ok (high.map Char.ofNat)

def takeEscape : (text : List Char) → Except Fault (Taken Char text)
  | 'u' :: rest => do
    let taken ← takeUnicode rest
    .ok taken.behind
  | c :: rest =>
    match shortEscape? c with
    | some meant => .ok (.ofHead meant)
    | none => .error ⟨.invalidEscape, c :: rest⟩
  | [] => .error ⟨.invalidEscape, []⟩

/-- The rest of a literal and its closing quote; `opening` is the text from the opening quote
on, to which a missing end is reported. -/
def takeStringBody (opening text : List Char) : Except Fault (Taken (List Char) text) :=
  match text with
  | [] => .error ⟨.unclosedString, opening⟩
  | '"' :: _ => .ok (.ofHead [])
  | '\\' :: escaped => do
    let char ← takeEscape escaped
    have := char.shorter
    let body ← takeStringBody opening char.rest
    .ok ((body.map (char.value :: ·)).widen (by simp; omega))
  | c :: rest => do
    let body ← takeStringBody opening rest
    .ok (body.map (c :: ·)).behind
termination_by text.length

end Scim.Text
