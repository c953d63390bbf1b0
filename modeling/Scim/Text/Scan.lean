import Scim.Text.Fault

/-! Readers take something off the front of a text. Each result carries the proof that the
text has become shorter, on which the recursion of the grammars rests. -/
namespace Scim

/-- A value read off the front of `text`, and what is left. -/
structure Taken (α : Type) (text : List Char) where
  value : α
  rest : List Char
  shorter : rest.length < text.length

/-- The same where nothing need have been read. -/
structure Passed (α : Type) (text : List Char) where
  value : α
  rest : List Char
  noLonger : rest.length ≤ text.length

namespace Taken

variable {α β : Type} {text longer : List Char}

def map (f : α → β) (taken : Taken α text) : Taken β text :=
  ⟨f taken.value, taken.rest, taken.shorter⟩

def widen (taken : Taken α text) (h : text.length ≤ longer.length) : Taken α longer :=
  ⟨taken.value, taken.rest, Nat.lt_of_lt_of_le taken.shorter h⟩

def ofHead {c : Char} (value : α) : Taken α (c :: text) := ⟨value, text, Nat.lt_succ_self _⟩

def behind {c : Char} (taken : Taken α text) : Taken α (c :: text) :=
  taken.widen (Nat.le_succ _)

def remaining : Option (Taken α text) → List Char
  | some taken => taken.rest
  | none => text

theorem remaining_length_le (taken : Option (Taken α text)) :
    (remaining taken).length ≤ text.length := by
  cases taken with
  | none => exact Nat.le_refl _
  | some taken => exact Nat.le_of_lt taken.shorter

end Taken

theorem length_dropWhile_le {α : Type} (p : α → Bool) (text : List α) :
    (text.dropWhile p).length ≤ text.length :=
  (List.dropWhile_suffix p).length_le

theorem length_dropWhile_lt {α : Type} {p : α → Bool} {text : List α}
    (h : text.takeWhile p ≠ []) : (text.dropWhile p).length < text.length := by
  have parts := congrArg List.length (List.takeWhile_append_dropWhile (p := p) (l := text))
  have := List.length_pos_iff.2 h
  rw [List.length_append] at parts
  omega

def takeRun (p : Char → Bool) (text : List Char) : Option (Taken (List Char) text) :=
  if h : text.takeWhile p = [] then none
  else some ⟨text.takeWhile p, text.dropWhile p, length_dropWhile_lt h⟩

end Scim
