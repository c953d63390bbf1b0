import Scim.Proofs.Text.Literals

/-! Texts with the letters outside string literals lowered, and readers that do not tell such texts
from the ones they are made of. -/
namespace Scim

mutual

/-- The text with the capitals outside string literals lowered. -/
def lowerOutside : List Char → List Char
  | [] => []
  | '"' :: rest => '"' :: lowerInside rest
  | c :: rest => c.toLower :: lowerOutside rest

def lowerInside : List Char → List Char
  | [] => []
  | '"' :: rest => '"' :: lowerOutside rest
  | '\\' :: c :: rest => '\\' :: c :: lowerInside rest
  | c :: rest => c :: lowerInside rest

end

theorem lowerOutside_nil : lowerOutside [] = [] := by rw [lowerOutside]

theorem lowerOutside_quote (rest : List Char) :
    lowerOutside ('"' :: rest) = '"' :: lowerInside rest := by rw [lowerOutside]

theorem lowerOutside_cons {c : Char} (noQuote : c ≠ '"') (rest : List Char) :
    lowerOutside (c :: rest) = c.toLower :: lowerOutside rest := by
  rw [lowerOutside]
  exact fun same => noQuote same

theorem lowerInside_nil : lowerInside [] = [] := by rw [lowerInside]

theorem lowerInside_quote (rest : List Char) :
    lowerInside ('"' :: rest) = '"' :: lowerOutside rest := by rw [lowerInside]

theorem lowerInside_escape (c : Char) (rest : List Char) :
    lowerInside ('\\' :: c :: rest) = '\\' :: c :: lowerInside rest := by rw [lowerInside]

theorem lowerInside_cons {c : Char} (noQuote : c ≠ '"') (noBackslash : c ≠ '\\')
    (rest : List Char) : lowerInside (c :: rest) = c :: lowerInside rest := by
  rw [lowerInside]
  · exact fun same => noQuote same
  · exact fun _ _ same => absurd same noBackslash

theorem head?_lowerOutside (text : List Char) :
    (lowerOutside text).head? = text.head?.map Char.toLower := by
  cases text with
  | nil => rw [lowerOutside_nil]; rfl
  | cons c rest =>
    by_cases quote : c = '"'
    · subst quote
      rw [lowerOutside_quote]
      rfl
    · rw [lowerOutside_cons quote]
      rfl

theorem lowerOutside_eq_nil {text : List Char} : lowerOutside text = [] ↔ text = [] := by
  rw [← List.head?_eq_none_iff, head?_lowerOutside, Option.map_eq_none_iff, List.head?_eq_none_iff]

theorem lowerOutside_append {run : List Char} (noQuote : '"' ∉ run) (rest : List Char) :
    lowerOutside (run ++ rest) = run.map Char.toLower ++ lowerOutside rest := by
  induction run with
  | nil => rfl
  | cons c run ih =>
    rw [List.mem_cons, not_or] at noQuote
    rw [List.cons_append, lowerOutside_cons (Ne.symm noQuote.1), ih noQuote.2, List.map_cons,
      List.cons_append]

section

variable {p : Char → Bool}

theorem takeWhile_lowerOutside (caseless : ∀ c, p c.toLower = p c) (noQuote : p '"' = false)
    (text : List Char) :
    (lowerOutside text).takeWhile p = (text.takeWhile p).map Char.toLower := by
  induction text with
  | nil => rw [lowerOutside_nil]; rfl
  | cons c rest ih =>
    by_cases quote : c = '"'
    · subst quote
      simp [lowerOutside_quote, noQuote]
    · rw [lowerOutside_cons quote, List.takeWhile_cons, List.takeWhile_cons, caseless, ih]
      cases p c <;> rfl

theorem dropWhile_lowerOutside (caseless : ∀ c, p c.toLower = p c) (noQuote : p '"' = false)
    (text : List Char) :
    (lowerOutside text).dropWhile p = lowerOutside (text.dropWhile p) := by
  induction text with
  | nil => rw [lowerOutside_nil]; rfl
  | cons c rest ih =>
    by_cases quote : c = '"'
    · subst quote
      simp [lowerOutside_quote, noQuote]
    · rw [lowerOutside_cons quote, List.dropWhile_cons, List.dropWhile_cons, caseless, ih]
      cases p c
      · exact (lowerOutside_cons quote rest).symm
      · rfl

theorem stops_lowerOutside (caseless : ∀ c, p c.toLower = p c) {text : List Char}
    (stops : Stops p text) : Stops p (lowerOutside text) := by
  intro c first
  rw [head?_lowerOutside] at first
  obtain ⟨original, head, rfl⟩ := Option.map_eq_some_iff.mp first
  rw [caseless]
  exact stops original head

/-- A class that does not tell letters by case holds of a run as long as before. -/
theorem takeRun_lowerOutside (caseless : ∀ c, p c.toLower = p c) (noQuote : p '"' = false)
    (text : List Char) :
    (takeRun p (lowerOutside text)).map Taken.pair =
      ((takeRun p text).map Taken.pair).map (Prod.map (List.map Char.toLower) lowerOutside) := by
  have taken := takeWhile_lowerOutside caseless noQuote text
  have left := dropWhile_lowerOutside caseless noQuote text
  unfold takeRun
  by_cases none : text.takeWhile p = []
  · rw [dif_pos none, dif_pos (by rw [taken, none, List.map_nil])]
    rfl
  · have some : (lowerOutside text).takeWhile p ≠ [] := by
      rwa [taken, ne_eq, List.map_eq_nil_iff]
    rw [dif_neg none, dif_neg some]
    simp only [Option.map_some, Taken.pair, Prod.map, taken, left]

end

/-- Two readings of which both fail, or the second gives what the first gives, but lowered. -/
def LowersTo {α : Type} (lower : α → α) (one other : Except Fault α) : Prop :=
  other.toOption = one.toOption.map lower

namespace LowersTo

variable {α β : Type} {one other : Except Fault α}

theorem ok {lower : α → α} (found : α) : LowersTo lower (.ok found) (.ok (lower found)) := rfl

theorem error {lower : α → α} (fault further : Fault) :
    LowersTo lower (.error fault) (.error further) := rfl

theorem bind {lower : α → α} {lowerNext : β → β} {next step : α → Except Fault β}
    (same : LowersTo lower one other)
    (onward : ∀ found, one = .ok found → LowersTo lowerNext (next found) (step (lower found))) :
    LowersTo lowerNext (one >>= next) (other >>= step) := by
  cases one with
  | error fault =>
    cases other with
    | error further => rfl
    | ok found => cases same
  | ok found =>
    cases other with
    | error further => cases same
    | ok lowered =>
      cases same
      exact onward found rfl

theorem of_ok {lower : α → α} (kept : ∀ found, one = .ok found → other = .ok (lower found))
    (accepted : ∀ found, other = .ok found → ∃ before, one = .ok before) :
    LowersTo lower one other := by
  cases one with
  | ok found =>
    rw [kept found rfl]
    rfl
  | error fault =>
    cases other with
    | error further => rfl
    | ok lowered =>
      obtain ⟨found, same⟩ := accepted lowered rfl
      cases same

end LowersTo

abbrev ReadsLowered {α : Type} (f : α → α) (lower : List Char → List Char)
    (one other : Except Fault (α × List Char)) : Prop :=
  LowersTo (Prod.map f lower) one other

theorem LowersTo.pair {α : Type} {f : α → α} {lower : List Char → List Char} (value : α)
    (rest : List Char) : ReadsLowered f lower (.ok (value, rest)) (.ok (f value, lower rest)) := rfl

/-- A value without letters is read as it is. -/
theorem LowersTo.same {α : Type} {lower : List Char → List Char} (value : α)
    (rest : List Char) : ReadsLowered id lower (.ok (value, rest)) (.ok (value, lower rest)) := rfl

namespace Text

theorem eq_of_lowerInside_eq_cons {text after : List Char} {c : Char}
    (same : lowerInside text = c :: after) : ∃ rest, text = c :: rest := by
  unfold lowerInside at same
  split at same
  · cases same
  · cases same; exact ⟨_, rfl⟩
  · cases same; exact ⟨_, rfl⟩
  · cases same; exact ⟨_, rfl⟩

/-- A hexadecimal digit within a literal stays, and so does the mode of what follows. -/
theorem lowerInside_hexDigit {c : Char} {digit : Nat} (hex : hexDigit? c = some digit)
    (rest : List Char) : lowerInside (c :: rest) = c :: lowerInside rest := by
  apply lowerInside_cons
  · rintro rfl
    simp [hexDigit?] at hex
  · rintro rfl
    simp [hexDigit?] at hex

theorem takeHex4_lowers (text : List Char) :
    ReadsLowered id lowerInside (reading (takeHex4 text)) (reading (takeHex4 (lowerInside text))) := by
  apply LowersTo.of_ok
  · rintro ⟨code, rest⟩ read
    obtain ⟨a, b, c, d, p, q, r, s, rfl, first, second, third, fourth, value⟩ :=
      reading_takeHex4_eq_ok.mp read
    rw [lowerInside_hexDigit first, lowerInside_hexDigit second, lowerInside_hexDigit third,
      lowerInside_hexDigit fourth]
    exact reading_takeHex4_eq_ok.mpr
      ⟨a, b, c, d, p, q, r, s, rfl, first, second, third, fourth, value⟩
  · rintro ⟨code, rest⟩ read
    obtain ⟨a, b, c, d, p, q, r, s, lowered, first, second, third, fourth, value⟩ :=
      reading_takeHex4_eq_ok.mp read
    obtain ⟨more, rfl⟩ := eq_of_lowerInside_eq_cons lowered
    rw [lowerInside_hexDigit first, List.cons.injEq] at lowered
    obtain ⟨more, rfl⟩ := eq_of_lowerInside_eq_cons lowered.2
    rw [lowerInside_hexDigit second, List.cons.injEq] at lowered
    obtain ⟨more, rfl⟩ := eq_of_lowerInside_eq_cons lowered.2.2
    rw [lowerInside_hexDigit third, List.cons.injEq] at lowered
    obtain ⟨more, rfl⟩ := eq_of_lowerInside_eq_cons lowered.2.2.2
    exact ⟨_, reading_takeHex4_eq_ok.mpr
      ⟨a, b, c, d, p, q, r, s, rfl, first, second, third, fourth, rfl⟩⟩

/-- What stands after a backslash is not lowered. -/
theorem takeUnicode_lowers (text : List Char) :
    ReadsLowered id lowerInside (reading (takeUnicode text))
      (reading (takeUnicode (lowerInside text))) := by
  rw [reading_takeUnicode, reading_takeUnicode]
  refine (takeHex4_lowers text).bind fun (high, rest) _ => ?_
  dsimp only [Prod.map, id]
  split
  · split
    next second _ =>
      rw [lowerInside_escape]
      refine (takeHex4_lowers second).bind fun (low, last) _ => ?_
      dsimp only [Prod.map, id]
      split
      · exact .same ..
      · exact .error ..
    next unpaired =>
      split
      next second paired =>
        obtain ⟨more, rfl⟩ := eq_of_lowerInside_eq_cons paired
        cases more with
        | nil => simp [lowerInside] at paired
        | cons mark left =>
          rw [lowerInside_escape] at paired
          cases paired
          exact absurd rfl (unpaired left)
      next => exact .error ..
  · split
    · exact .error ..
    · exact .same ..

theorem takeEscape_lowers (mark : Char) (rest : List Char) :
    ReadsLowered id lowerInside (reading (takeEscape (mark :: rest)))
      (reading (takeEscape (mark :: lowerInside rest))) := by
  by_cases unicode : mark = 'u'
  · subst unicode
    rw [reading_takeEscape_unicode, reading_takeEscape_unicode]
    exact takeUnicode_lowers rest
  · cases short : shortEscape? mark with
    | some meant =>
      rw [reading_takeEscape_short _ unicode short, reading_takeEscape_short _ unicode short]
      exact .same ..
    | none =>
      rw [takeEscape_refused _ unicode short, takeEscape_refused _ unicode short]
      exact .error ..

/-- A literal is read as it is, and what follows it is lowered. -/
theorem takeStringBody_lowers (opening further text : List Char) :
    ReadsLowered id lowerOutside (reading (takeStringBody opening text))
      (reading (takeStringBody further (lowerInside text))) := by
  induction h : text.length using Nat.strong_induction_on generalizing text with
  | _ length ih =>
  subst h
  cases text with
  | nil =>
    rw [lowerInside_nil, takeStringBody, takeStringBody]
    exact .error ..
  | cons c rest =>
    by_cases quote : c = '"'
    · subst quote
      rw [lowerInside_quote, reading_takeStringBody_quote, reading_takeStringBody_quote]
      exact .same ..
    · by_cases backslash : c = '\\'
      · subst backslash
        cases rest with
        | nil =>
          have alone : lowerInside ['\\'] = ['\\'] := by simp [lowerInside]
          rw [alone, reading_takeStringBody_escape, reading_takeStringBody_escape, takeEscape]
          exact .error ..
        | cons mark more =>
          rw [lowerInside_escape, reading_takeStringBody_escape, reading_takeStringBody_escape]
          refine (takeEscape_lowers mark more).bind fun escaped read => ?_
          have shorter := length_of_reading read
          have body := ih escaped.2.length (by rw [List.length_cons]; omega) escaped.2 rfl
          exact body.bind fun _ _ => .same ..
      · rw [lowerInside_cons quote backslash, reading_takeStringBody_plain _ _ quote backslash,
          reading_takeStringBody_plain _ _ quote backslash]
        exact (ih rest.length (Nat.lt_succ_self _) rest rfl).bind fun _ _ => .same ..

end Text
end Scim
