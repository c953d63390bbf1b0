import Mathlib.Tactic.IntervalCases
import Scim.Json.Printer
import Scim.Proofs.Text.Readers

/-! String literals as printed are read back, character by character. -/
namespace Scim

namespace Text

theorem reading_takeStringBody_quote (opening rest : List Char) :
    reading (takeStringBody opening ('"' :: rest)) = .ok ([], rest) := by
  rw [takeStringBody]
  rfl

theorem reading_takeStringBody_escape (opening escaped : List Char) :
    reading (takeStringBody opening ('\\' :: escaped)) = (do
      let (char, rest) ← reading (takeEscape escaped)
      let (body, rest) ← reading (takeStringBody opening rest)
      .ok (char :: body, rest)) := by
  rw [takeStringBody]
  refine reading_bind _ _ _ fun char => ?_
  exact reading_bind _ _ _ fun body => rfl

theorem reading_takeStringBody_plain (opening : List Char) {c : Char} (rest : List Char)
    (noQuote : c ≠ '"') (noBackslash : c ≠ '\\') :
    reading (takeStringBody opening (c :: rest)) = (do
      let (body, rest) ← reading (takeStringBody opening rest)
      .ok (c :: body, rest)) := by
  rw [takeStringBody]
  · exact reading_bind _ _ _ fun body => rfl
  · exact fun same => noQuote same
  · exact fun same => noBackslash same

theorem reading_takeEscape_short {c meant : Char} (rest : List Char) (notUnicode : c ≠ 'u')
    (short : shortEscape? c = some meant) : reading (takeEscape (c :: rest)) = .ok (meant, rest) := by
  rw [takeEscape]
  · simp [short, Taken.ofHead]
  · exact fun same => notUnicode same

theorem takeEscape_refused {c : Char} (rest : List Char) (notUnicode : c ≠ 'u')
    (unknown : shortEscape? c = none) :
    takeEscape (c :: rest) = .error ⟨.invalidEscape, c :: rest⟩ := by
  rw [takeEscape]
  · simp only [unknown]
  · exact fun same => notUnicode same

theorem reading_takeEscape_unicode (rest : List Char) :
    reading (takeEscape ('u' :: rest)) = reading (takeUnicode rest) := by
  rw [takeEscape]
  cases takeUnicode rest <;> rfl

theorem reading_takeHex4_eq_ok {text rest : List Char} {code : Nat} :
    reading (takeHex4 text) = .ok (code, rest) ↔
      ∃ a b c d p q r s, text = a :: b :: c :: d :: rest ∧ hexDigit? a = some p ∧
        hexDigit? b = some q ∧ hexDigit? c = some r ∧ hexDigit? d = some s ∧
        code = ((p * 16 + q) * 16 + r) * 16 + s := by
  constructor
  · intro read
    unfold takeHex4 at read
    split at read
    next a b c d more =>
      split at read
      next p q r s first second third fourth =>
        cases read
        exact ⟨a, b, c, d, p, q, r, s, rfl, first, second, third, fourth, rfl⟩
      next => cases read
    next => cases read
  · rintro ⟨a, b, c, d, p, q, r, s, rfl, first, second, third, fourth, rfl⟩
    simp only [takeHex4, first, second, third, fourth]
    rfl

theorem reading_takeUnicode (text : List Char) : reading (takeUnicode text) = (do
    let (high, rest) ← reading (takeHex4 text)
    if isHighSurrogate high then
      match rest with
      | '\\' :: 'u' :: second => do
        let (low, rest) ← reading (takeHex4 second)
        if isLowSurrogate low then
          .ok (Char.ofNat (0x10000 + (high - 0xD800) * 0x400 + (low - 0xDC00)), rest)
        else .error ⟨.invalidEscape, rest⟩
      | rest => .error ⟨.invalidEscape, rest⟩
    else if isLowSurrogate high then .error ⟨.invalidEscape, rest⟩
    else .ok (Char.ofNat high, rest)) := by
  simp only [takeUnicode]
  refine reading_bind _ _ _ fun high => ?_
  dsimp only [Taken.pair]
  split
  · split
    next second paired =>
      split
      next again =>
        cases paired.symm.trans again
        refine reading_bind _ _ _ fun low => ?_
        dsimp only [Taken.pair]
        split
        · rw [reading_ok]
        · rw [reading_error]
      next unpaired => exact absurd paired (unpaired second)
    next unpaired =>
      split
      next second paired => exact absurd paired (unpaired second)
      next => rfl
  · split <;> rfl

theorem takeHex4_control {code : Nat} (control : code < 0x20) (rest : List Char) :
    ∃ shorter, takeHex4 ('0' :: '0' :: Nat.digitChar (code / 16) :: Nat.digitChar (code % 16) ::
      rest) = .ok ⟨code, rest, shorter⟩ := by
  refine ⟨by simp; omega, ?_⟩
  interval_cases code <;> rfl

theorem reading_takeEscape_control {c : Char} (control : c.toNat < 0x20) (rest : List Char) :
    reading (takeEscape ('u' :: '0' :: '0' :: Nat.digitChar (c.toNat / 16) ::
      Nat.digitChar (c.toNat % 16) :: rest)) = .ok (c, rest) := by
  obtain ⟨shorter, digits⟩ := takeHex4_control control rest
  have high : isHighSurrogate c.toNat = false := by simp [isHighSurrogate]; omega
  have low : isLowSurrogate c.toNat = false := by simp [isLowSurrogate]; omega
  simp only [takeEscape, takeUnicode, digits, bind, Except.bind, high, low]
  simp [Taken.map, Taken.behind, Taken.widen]

theorem reading_takeStringBody_escapeChar (opening : List Char) (c : Char) (rest : List Char) :
    reading (takeStringBody opening (Json.escapeChar c ++ rest)) = (do
      let (body, rest) ← reading (takeStringBody opening rest)
      .ok (c :: body, rest)) := by
  have escaped (mark : Char) (notUnicode : mark ≠ 'u') (short : shortEscape? mark = some c) :
      reading (takeStringBody opening ('\\' :: mark :: rest)) = (do
        let (body, rest) ← reading (takeStringBody opening rest)
        .ok (c :: body, rest)) := by
    rw [reading_takeStringBody_escape, reading_takeEscape_short rest notUnicode short]
    rfl
  generalize written : Json.escapeChar c = chars
  simp only [Json.escapeChar] at written
  split at written
  next quote =>
    rcases quote with rfl | rfl
    · cases written
      exact escaped '"' (by decide) rfl
    · cases written
      exact escaped '\\' (by decide) rfl
  next unquoted =>
    split at written
    next backspace => cases written; exact escaped 'b' (by decide) (by rw [backspace]; rfl)
    split at written
    next feed => cases written; exact escaped 'f' (by decide) (by rw [feed]; rfl)
    split at written
    next newline => cases written; exact escaped 'n' (by decide) (by rw [newline]; rfl)
    split at written
    next carriage => cases written; exact escaped 'r' (by decide) (by rw [carriage]; rfl)
    split at written
    next tab => cases written; exact escaped 't' (by decide) (by rw [tab]; rfl)
    split at written
    next control =>
      cases written
      simp only [Json.controlEscape, List.cons_append, List.nil_append]
      rw [reading_takeStringBody_escape, reading_takeEscape_control control]
      rfl
    next =>
      cases written
      rw [not_or] at unquoted
      exact reading_takeStringBody_plain opening rest unquoted.1 unquoted.2

/-- The printed characters and the closing quote are read up to what follows. -/
theorem reading_takeStringBody (opening text after : List Char) :
    reading (takeStringBody opening (text.flatMap Json.escapeChar ++ '"' :: after)) =
      .ok (text, after) := by
  induction text with
  | nil => exact reading_takeStringBody_quote opening after
  | cons c rest ih =>
    rw [List.flatMap_cons, List.append_assoc, reading_takeStringBody_escapeChar, ih]
    rfl

end Text
end Scim
