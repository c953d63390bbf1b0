import Mathlib.Tactic.IntervalCases
import Scim.Proofs.Path.Attributes

/-! The words of the filter grammar: operators, `and`, `or` and `not`. The last is a keyword only
where a filter can follow, so that attributes may start with it. -/
namespace Scim

/-- A character is one of the capitals, or lowering leaves it alone. -/
theorem toLower_induct {motive : Char → Prop}
    (capital : ∀ code, 65 ≤ code → code ≤ 90 → motive (Char.ofNat code))
    (kept : ∀ c : Char, c.toLower = c → motive c) (c : Char) : motive c := by
  by_cases upper : 65 ≤ c.toNat ∧ c.toNat ≤ 90
  · rw [← Char.ofNat_toNat c]
    exact capital c.toNat upper.1 upper.2
  · apply kept
    unfold Char.toLower
    split
    next bounds =>
      exact absurd ⟨UInt32.le_iff_toNat_le.mp bounds.1, UInt32.le_iff_toNat_le.mp bounds.2⟩ upper
    next => rfl

/-- Only letters are lowered, to letters. -/
theorem toLower_cases (c : Char) :
    c.toLower = c ∨ c.isAlpha = true ∧ c.toLower.isAlpha = true := by
  induction c using toLower_induct with
  | capital code low high => interval_cases code <;> decide
  | kept c same => exact .inl same

theorem isAlpha_toLower (c : Char) : c.toLower.isAlpha = c.isAlpha := by
  rcases toLower_cases c with same | ⟨letter, lowered⟩
  · rw [same]
  · rw [letter, lowered]

/-- A class that does not tell capitals from small letters holds of all characters of a text in
every case. -/
theorem all_of_lowered {p : Char → Bool} (caseless : ∀ c, p c.toLower = p c) {a b : List Char}
    (same : a.map Char.toLower = b.map Char.toLower) (all : ∀ c ∈ b, p c = true) :
    ∀ c ∈ a, p c = true := by
  intro c member
  have lowered : c.toLower ∈ b.map Char.toLower := same ▸ List.mem_map_of_mem member
  obtain ⟨other, among, equal⟩ := List.mem_map.mp lowered
  rw [← caseless, ← equal, caseless]
  exact all other among

theorem isAlpha_of_caseless {word : List Char} {name : String}
    (same : Caseless (String.ofList word) name) (letters : ∀ c ∈ name.toList, c.isAlpha = true) :
    ∀ c ∈ word, c.isAlpha = true :=
  all_of_lowered isAlpha_toLower (by simpa [Caseless, folded] using same) letters

theorem ne_nil_of_caseless {word : List Char} {name : String}
    (same : Caseless (String.ofList word) name) (some : name ≠ "") : word ≠ [] := by
  rintro rfl
  simp only [Caseless, folded, String.toList_ofList, List.map_nil, List.nil_eq,
    List.map_eq_nil_iff, String.toList_eq_nil_iff] at same
  exact some same

theorem isAlpha_of_not {word : List Char} (keyword : Caseless (String.ofList word) "not") :
    ∀ c ∈ word, c.isAlpha = true :=
  isAlpha_of_caseless keyword (List.all_eq_true.mp (by decide))

theorem CompareOp.ofWord?_word (op : CompareOp) : ofWord? op.word = some op := by
  cases op <;> decide

theorem LogicalOp.ofWord?_word (op : LogicalOp) : ofWord? op.word = some op := by
  cases op <;> decide

theorem CompareOp.isAlpha_word (op : CompareOp) : ∀ c ∈ op.word.toList, c.isAlpha = true := by
  cases op <;> exact List.all_eq_true.mp (by decide)

theorem LogicalOp.isAlpha_word (op : LogicalOp) : ∀ c ∈ op.word.toList, c.isAlpha = true := by
  cases op <;> exact List.all_eq_true.mp (by decide)

theorem isBlank_of_isAlpha {c : Char} (letter : c.isAlpha = true) : Text.isBlank c = false :=
  isBlank_of_isAttributeChar (isAttributeChar_of_isAlpha letter)

theorem stops_of_word {word : List Char} (some : word ≠ [])
    (letters : ∀ c ∈ word, c.isAlpha = true) (after : List Char) :
    Stops Text.isBlank (word ++ after) := by
  obtain ⟨c, rest, rfl⟩ := List.exists_cons_of_ne_nil some
  exact (stops_cons _ c _).mpr (isBlank_of_isAlpha (letters c (by simp)))

namespace Filter

theorem reading_takeBlank_space {text : List Char} (stops : Stops Text.isBlank text) :
    reading (takeBlank (' ' :: text)) = .ok ([' '], text) := by
  obtain ⟨shorter, taken⟩ : ∃ shorter, takeRun Text.isBlank (' ' :: text) =
      some ⟨[' '], text, shorter⟩ :=
    takeRun_append (List.cons_ne_nil ' ' []) (List.all_eq_true.mp (by decide)) stops
  simp [takeBlank, taken]

theorem reading_takeOperator_word (op : CompareOp) {after : List Char}
    (stops : Stops Char.isAlpha after) :
    reading (takeOperator (op.word.toList ++ after)) = .ok (op, after) := by
  obtain ⟨shorter, taken⟩ := takeRun_append (by cases op <;> decide) op.isAlpha_word stops
  simp [takeOperator, taken, CompareOp.ofWord?_word, Taken.map]

theorem takeLogical?_keyword {word after : List Char} {op : LogicalOp}
    (keyword : Caseless (String.ofList word) op.word) (stops : Stops Char.isAlpha after) :
    (takeLogical? (word ++ after)).map Taken.pair = some (op, after) := by
  have letters := isAlpha_of_caseless keyword op.isAlpha_word
  have nonempty := ne_nil_of_caseless keyword (by cases op <;> decide)
  obtain ⟨shorter, taken⟩ := takeRun_append nonempty letters stops
  have meant : LogicalOp.ofWord? (String.ofList word) = some op := by
    rw [← LogicalOp.ofWord?_word op]
    simp only [LogicalOp.ofWord?, keyword.congr_right]
  simp [takeLogical?, taken, meant]

theorem takeLogical?_word (op : LogicalOp) {after : List Char} (stops : Stops Char.isAlpha after) :
    (takeLogical? (op.word.toList ++ after)).map Taken.pair = some (op, after) :=
  takeLogical?_keyword (by rw [String.ofList_toList]; exact .refl _) stops

theorem takeNot?_keyword {word after : List Char} (keyword : Caseless (String.ofList word) "not")
    (stops : Stops Char.isAlpha after)
    (follows : startsParenthesis after = true ∨ startsBlank after = true) :
    (takeNot? (word ++ after)).map Taken.pair = some (word, after) := by
  obtain ⟨shorter, taken⟩ :=
    takeRun_append (ne_nil_of_caseless keyword (by decide)) (isAlpha_of_not keyword) stops
  simp [takeNot?, taken, keyword, follows, Taken.pair]

theorem stops_of_follows {text : List Char}
    (follows : startsParenthesis text = true ∨ startsBlank text = true) :
    Stops isAttributeChar text := by
  cases text with
  | nil => simp
  | cons c rest =>
    rw [stops_cons]
    rcases follows with parenthesis | blank
    · unfold startsParenthesis at parenthesis
      split at parenthesis
      next same => cases same; decide
      next => cases parenthesis
    · rw [← Bool.not_eq_true]
      intro allowed
      exact absurd blank (by simp [startsBlank, isBlank_of_isAttributeChar allowed])

/-- An attribute other than `not` is not taken for the keyword. -/
theorem takeNot?_attribute {token after : List Char}
    (allowed : ∀ c ∈ token, isAttributeChar c = true) (stops : Stops isAttributeChar after)
    (other : ¬ Caseless (String.ofList token) "not") : takeNot? (token ++ after) = none := by
  simp only [takeNot?]
  split
  next word found =>
    apply if_neg
    rintro ⟨keyword, follows⟩
    apply other
    obtain ⟨parts, _, letters, _⟩ := takeRun_eq_some found
    have whole := takeWhile_append_of_stops allowed stops
    rw [parts, takeWhile_append_of_stops
      (fun c member => isAttributeChar_of_isAlpha (letters c member))
      (stops_of_follows follows)] at whole
    exact whole ▸ keyword
  next => rfl

end Filter
end Scim
