import Scim.Proofs.Path.Rereading

/-! Which brackets of a text stand between quotes. What a reader of filters passes over has all its
brackets and backslashes inside string literals, and so does what is printed for a filter. -/
namespace Scim

/-- Where a text is with regard to string literals. -/
inductive QuoteMode where
  | outside
  | inside
  | escaped
  deriving DecidableEq

def QuoteMode.step? : QuoteMode → Char → Option QuoteMode
  | .outside, c =>
    if c = '"' then some .inside else if c = '\\' ∨ c = '[' ∨ c = ']' then none else some .outside
  | .inside, c =>
    if c = '"' then some .outside else if c = '\\' then some .escaped else some .inside
  | .escaped, _ => some .inside

def QuoteMode.scan? (mode : QuoteMode) (text : List Char) : Option QuoteMode :=
  text.foldlM step? mode

def Balanced (text : List Char) : Prop := QuoteMode.outside.scan? text = some .outside

namespace QuoteMode

@[simp] theorem scan?_nil (mode : QuoteMode) : mode.scan? [] = some mode := rfl

theorem scan?_cons (mode : QuoteMode) (c : Char) (rest : List Char) :
    mode.scan? (c :: rest) = (mode.step? c).bind (·.scan? rest) := rfl

theorem scan?_append (mode : QuoteMode) (first rest : List Char) :
    mode.scan? (first ++ rest) = (mode.scan? first).bind (·.scan? rest) :=
  List.foldlM_append

/-- A text read once from outside and once from inside ends on opposite sides. -/
theorem scan?_opposite (text : List Char) :
    ¬ (outside.scan? text = some .outside ∧ inside.scan? text = some .outside) ∧
      ¬ (outside.scan? text = some .inside ∧ inside.scan? text = some .inside) := by
  induction text with
  | nil => simp
  | cons c rest ih =>
    by_cases quote : c = '"'
    · simp only [scan?_cons, step?, quote, if_true, Option.bind_some]
      exact ⟨fun both => ih.1 both.symm, fun both => ih.2 both.symm⟩
    · by_cases refused : c = '\\' ∨ c = '[' ∨ c = ']'
      · have stopped : outside.step? c = none := by rw [step?, if_neg quote, if_pos refused]
        simp [scan?_cons, stopped]
      · have passed : outside.step? c = some .outside := by
          rw [step?, if_neg quote, if_neg refused]
        have kept : inside.step? c = some .inside := by
          rw [step?, if_neg quote, if_neg fun same => refused (.inl same)]
        simpa only [scan?_cons, passed, kept, Option.bind_some] using ih

end QuoteMode

def IsPlain (c : Char) : Prop := c ≠ '"' ∧ c ≠ '\\' ∧ c ≠ '[' ∧ c ≠ ']'

instance (c : Char) : Decidable (IsPlain c) :=
  inferInstanceAs (Decidable (c ≠ '"' ∧ c ≠ '\\' ∧ c ≠ '[' ∧ c ≠ ']'))

theorem IsPlain.of_class {p : Char → Bool} {c : Char} (of : p c = true) (quote : p '"' = false)
    (backslash : p '\\' = false) (bracket : p '[' = false) (closing : p ']' = false) :
    IsPlain c := by
  refine ⟨?_, ?_, ?_, ?_⟩ <;>
    (rintro rfl; simp_all)

namespace Balanced

theorem nil : Balanced [] := rfl

theorem append {first rest : List Char} (one : Balanced first) (other : Balanced rest) :
    Balanced (first ++ rest) := by
  rw [Balanced, QuoteMode.scan?_append, one]
  exact other

theorem of_plain {text : List Char} (plain : ∀ c ∈ text, IsPlain c) : Balanced text := by
  induction text with
  | nil => rfl
  | cons c rest ih =>
    simp only [List.forall_mem_cons] at plain
    obtain ⟨⟨quote, backslash, bracket, closing⟩, others⟩ := plain
    rw [Balanced, QuoteMode.scan?_cons, QuoteMode.step?, if_neg quote, if_neg (by simp [*])]
    exact ih others

theorem of_class {p : Char → Bool} {text : List Char} (all : ∀ c ∈ text, p c = true)
    (quote : p '"' = false) (backslash : p '\\' = false) (bracket : p '[' = false)
    (closing : p ']' = false) : Balanced text :=
  of_plain fun c member => .of_class (all c member) quote backslash bracket closing

theorem cons {c : Char} {rest : List Char} (plain : IsPlain c) (balanced : Balanced rest) :
    Balanced (c :: rest) := by
  have first : Balanced [c] := of_plain (by simpa using plain)
  exact first.append balanced

end Balanced

/-- The rest is left of the text behind a balanced part. -/
def Passes (text rest : List Char) : Prop := ∃ consumed, text = consumed ++ rest ∧ Balanced consumed

namespace Passes

variable {text rest last : List Char}

theorem refl (text : List Char) : Passes text text := ⟨[], rfl, .nil⟩

theorem trans (one : Passes text rest) (other : Passes rest last) : Passes text last := by
  obtain ⟨first, rfl, balanced⟩ := one
  obtain ⟨second, rfl, others⟩ := other
  exact ⟨first ++ second, (List.append_assoc ..).symm, balanced.append others⟩

theorem cons {c : Char} (plain : IsPlain c) (passes : Passes text rest) :
    Passes (c :: text) rest := by
  obtain ⟨consumed, rfl, balanced⟩ := passes
  exact ⟨c :: consumed, rfl, balanced.cons plain⟩

end Passes

theorem passes_takeRun {p : Char → Bool} {text : List Char} {taken : Taken (List Char) text}
    (found : takeRun p text = some taken) (quote : p '"' = false) (backslash : p '\\' = false)
    (bracket : p '[' = false) (closing : p ']' = false) : Passes text taken.rest := by
  obtain ⟨parts, _, all, _⟩ := takeRun_eq_some found
  exact ⟨_, parts, .of_class all quote backslash bracket closing⟩

theorem passes_skipBlank (text : List Char) : Passes text (Text.skipBlank text) := by
  refine ⟨text.takeWhile Text.isBlank, List.takeWhile_append_dropWhile.symm, ?_⟩
  exact .of_class (p := Text.isBlank) (fun c member => List.mem_takeWhile_imp member)
    (by decide) (by decide) (by decide) (by decide)

namespace Text

open QuoteMode

/-- What is read after a backslash ends inside the literal. -/
theorem scan?_takeHex4 {text : List Char} {taken : Taken Nat text}
    (read : takeHex4 text = .ok taken) :
    ∃ consumed, text = consumed ++ taken.rest ∧ inside.scan? consumed = some .inside := by
  unfold takeHex4 at read
  split at read
  next a b c d rest =>
    split at read
    next p q r s first second third fourth =>
      cases read
      have plain {c : Char} {digit : Nat} (hex : hexDigit? c = some digit) :
          inside.step? c = some .inside := by
        have quote : c ≠ '"' := by
          rintro rfl
          simp [hexDigit?] at hex
        have backslash : c ≠ '\\' := by
          rintro rfl
          simp [hexDigit?] at hex
        rw [step?, if_neg quote, if_neg backslash]
      refine ⟨[a, b, c, d], rfl, ?_⟩
      simp [scan?_cons, plain first, plain second, plain third, plain fourth]
    next => cases read
  next => cases read

theorem scan?_takeUnicode {text : List Char} {taken : Taken Char text}
    (read : takeUnicode text = .ok taken) :
    ∃ consumed, text = consumed ++ taken.rest ∧ inside.scan? consumed = some .inside := by
  simp only [takeUnicode] at read
  obtain ⟨high, highRead, read⟩ := bind_eq_ok.mp read
  obtain ⟨first, parts, scanned⟩ := scan?_takeHex4 highRead
  split at read
  next =>
    split at read
    next second paired =>
      obtain ⟨low, lowRead, read⟩ := bind_eq_ok.mp read
      obtain ⟨other, otherParts, otherScanned⟩ := scan?_takeHex4 lowRead
      split at read
      next =>
        have left : low.rest = taken.rest := congrArg Taken.rest (Except.ok.inj read)
        refine ⟨first ++ ('\\' :: 'u' :: other), ?_, ?_⟩
        · refine parts.trans ?_
          rw [paired, ← left]
          simpa using otherParts
        · simp [scan?_append, scanned, scan?_cons, step?, otherScanned]
      next => cases read
    next => cases read
  next =>
    split at read
    next => cases read
    next =>
      cases read
      exact ⟨first, parts, scanned⟩

theorem scan?_takeEscape {text : List Char} {taken : Taken Char text}
    (read : takeEscape text = .ok taken) :
    ∃ consumed, text = consumed ++ taken.rest ∧ escaped.scan? consumed = some .inside := by
  unfold takeEscape at read
  split at read
  next rest =>
    obtain ⟨code, codeRead, same⟩ := bind_eq_ok.mp read
    cases same
    obtain ⟨consumed, parts, scanned⟩ := scan?_takeUnicode codeRead
    exact ⟨'u' :: consumed, congrArg ('u' :: ·) parts, scanned⟩
  next c rest _ =>
    split at read
    next =>
      cases read
      exact ⟨[c], rfl, rfl⟩
    next => cases read
  next => cases read

/-- The rest of a literal ends behind its closing quote. -/
theorem scan?_takeStringBody (opening text : List Char) {body rest : List Char}
    (read : reading (takeStringBody opening text) = .ok (body, rest)) :
    ∃ consumed, text = consumed ++ rest ∧ inside.scan? consumed = some .outside := by
  induction h : text.length using Nat.strong_induction_on generalizing text body rest with
  | _ length ih =>
  subst h
  match text with
  | [] =>
    rw [takeStringBody] at read
    cases read
  | c :: more =>
    by_cases quote : c = '"'
    · subst quote
      rw [reading_takeStringBody_quote] at read
      cases read
      exact ⟨['"'], rfl, rfl⟩
    · by_cases backslash : c = '\\'
      · subst backslash
        rw [reading_takeStringBody_escape] at read
        obtain ⟨⟨char, left⟩, charRead, read⟩ := bind_eq_ok.mp read
        obtain ⟨⟨tail, others⟩, tailRead, same⟩ := bind_eq_ok.mp read
        cases same
        obtain ⟨shorter, taken⟩ := reading_eq_ok.mp charRead
        obtain ⟨first, parts, scanned⟩ := scan?_takeEscape taken
        obtain ⟨consumed, rest, closed⟩ := ih left.length (by simp; omega) left tailRead rfl
        refine ⟨'\\' :: first ++ consumed, ?_, ?_⟩
        · have whole : more = first ++ left := parts
          rw [whole, rest]
          simp
        · rw [scan?_append, scan?_cons]
          simp [step?, scanned, closed]
      · rw [reading_takeStringBody_plain opening more quote backslash] at read
        obtain ⟨⟨tail, others⟩, tailRead, same⟩ := bind_eq_ok.mp read
        cases same
        obtain ⟨consumed, rest, closed⟩ := ih more.length (by simp) more tailRead rfl
        refine ⟨c :: consumed, by rw [rest]; rfl, ?_⟩
        rw [scan?_cons, step?, if_neg quote, if_neg backslash]
        exact closed

end Text
end Scim
