import Scim.Proofs.Path.Enclosed
import Scim.Proofs.Path.LoweredTokens

/-! Filters put together from accepted ones. Operands in parentheses, negated, or bare if they are
single comparisons are joined by `and` and `or` in any mix, and the text is read as the tree that
groups them from the left. -/
namespace Scim

def Blank (text : List Char) : Prop := ∀ c ∈ text, Text.isBlank c = true

/-- The text starts where a word before it is over. -/
def StartsApart (text : List Char) : Prop := ∃ c ∈ text.head?, Text.isBlank c = true ∨ c = '('

namespace Filter

/-- The texts of an operand. An accepted filter may stand in parentheses, with blanks inside, and a
single comparison without; any operand may be enclosed once more or negated. -/
inductive OperandText : List Char → Filter → Prop where
  | group {text : String} {filter : Filter} {lead trail : List Char}
    (accepted : parse text = .ok filter) (leadBlank : Blank lead) (trailBlank : Blank trail) :
    OperandText ('(' :: (lead ++ text.toList ++ trail ++ [')'])) filter
  | bare {text : String} {path : Path} {op : CompareOp} {value : Json}
    (accepted : parse text = .ok (.compare path op value)) :
    OperandText text.toList (.compare path op value)
  | nested {chars : List Char} {filter : Filter} {lead trail : List Char}
    (inner : OperandText chars filter) (leadBlank : Blank lead) (trailBlank : Blank trail) :
    OperandText ('(' :: (lead ++ chars ++ trail ++ [')'])) filter
  | negated {word gap chars : List Char} {filter : Filter}
    (keyword : Caseless (String.ofList word) "not") (gapBlank : Blank gap)
    (inner : OperandText chars filter) (apart : StartsApart (gap ++ chars)) :
    OperandText (word ++ gap ++ chars) (.not filter)

/-- The texts of operands joined by `and` and `or`. Each word is apart from the operands at its
sides, by a parenthesis or a blank, and what stands before it is joined already. -/
inductive JoinedText : List Char → Filter → Prop where
  | operand {chars : List Char} {filter : Filter} (only : OperandText chars filter) :
    JoinedText chars filter
  | joined {first before word gap chars : List Char} {left right : Filter} {op : LogicalOp}
    (leftSpelled : JoinedText first left) (beforeBlank : Blank before)
    (endsApart : EndsApart (first ++ before)) (keyword : Caseless (String.ofList word) op.word)
    (gapBlank : Blank gap) (rightSpelled : OperandText chars right)
    (startsApart : StartsApart (gap ++ chars)) :
    JoinedText (first ++ before ++ word ++ gap ++ chars) (.logical op left right)

end Filter

namespace Blank

variable {blanks text : List Char}

theorem skip (blank : Blank blanks) (text : List Char) :
    Text.skipBlank (blanks ++ text) = Text.skipBlank text := List.dropWhile_append_of_pos blank

theorem endsToken (blank : Blank blanks) (ends : EndsToken text) : EndsToken (blanks ++ text) := by
  cases blanks with
  | nil => exact ends
  | cons c rest =>
    rintro _ ⟨⟩
    exact .inl (blank c List.mem_cons_self)

end Blank

theorem blank_of_skipBlank {text : List Char} (none : Text.skipBlank text = []) : Blank text :=
  List.dropWhile_eq_nil_iff.mp none

namespace StartsApart

variable {text : List Char}

theorem follows (apart : StartsApart text) (rest : List Char) :
    Filter.startsParenthesis (text ++ rest) = true ∨ Filter.startsBlank (text ++ rest) = true := by
  obtain ⟨c, first, blank | rfl⟩ := apart
  · obtain ⟨more, rfl⟩ := List.head?_eq_some_iff.mp first
    exact .inr blank
  · obtain ⟨more, rfl⟩ := List.head?_eq_some_iff.mp first
    exact .inl rfl

theorem noAlpha (apart : StartsApart text) (rest : List Char) :
    Stops Char.isAlpha (text ++ rest) := fun c first => Bool.eq_false_iff.mpr fun letter =>
  absurd (isAttributeChar_of_isAlpha letter)
    (by simp [Filter.stops_of_follows (apart.follows rest) c first])

end StartsApart

namespace Filter

/-- What follows an operand is read from behind the blanks. -/
theorem passing_takeMore_congr {text other : List Char}
    (same : Text.skipBlank text = Text.skipBlank other) :
    passing (takeMore text) = passing (takeMore other) := by
  rw [passing_takeMore, passing_takeMore, same]

theorem reading_takeExpression_congr {text other : List Char}
    (same : Text.skipBlank text = Text.skipBlank other) :
    reading (takeExpression text) = reading (takeExpression other) := by
  rw [reading_takeExpression, reading_takeExpression, reading_takeOperand_congr same]

theorem reading_takeExpression_operand {text left after : List Char} {filter : Filter}
    (operand : reading (takeOperand text) = .ok (filter, left ++ after)) (blank : Blank left) :
    reading (takeExpression text) = (do
      let (more, rest) ← passing (takeMore after)
      .ok (join filter more, rest)) := by
  rw [reading_takeExpression, operand]
  dsimp only [bind, Except.bind]
  rw [passing_takeMore_congr (blank.skip after)]

/-- What operands are joined to is no comparison. -/
theorem eq_nil_of_join {first : Filter} {more : List (LogicalOp × Filter)} {path : Path}
    {op : CompareOp} {value : Json} (same : join first more = .compare path op value) :
    more = [] := by
  induction more generalizing first with
  | nil => rfl
  | cons next rest ih =>
    cases ih same
    cases same

theorem reading_takeOperand_of_compare {text : String} {path : Path} {op : CompareOp} {value : Json}
    (accepted : parse text = .ok (.compare path op value)) :
    ∃ left, Blank left ∧
      reading (takeOperand text.toList) = .ok (.compare path op value, left) := by
  obtain ⟨rest, read, none⟩ := parse_eq_ok_iff.mp accepted
  rw [reading_takeExpression] at read
  obtain ⟨⟨first, left⟩, operandRead, read⟩ := bind_eq_ok.mp read
  obtain ⟨⟨more, last⟩, moreRead, same⟩ := bind_eq_ok.mp read
  obtain ⟨joined, rfl⟩ := Prod.mk.inj (Except.ok.inj same)
  cases eq_nil_of_join joined
  cases joined
  refine ⟨left, blank_of_skipBlank ?_, operandRead⟩
  rw [passing_takeMore] at moreRead
  split at moreRead
  next =>
    cases moreRead
    have again : Text.skipBlank (Text.skipBlank left) = Text.skipBlank left :=
      skipBlank_of_stops (stops_dropWhile _ left)
    rwa [again] at none
  next =>
    split at moreRead
    next =>
      obtain ⟨_, _, moreRead⟩ := bind_eq_ok.mp moreRead
      obtain ⟨_, _, same⟩ := bind_eq_ok.mp moreRead
      cases same
    next => cases moreRead

/-- In parentheses an expression is an operand. -/
theorem reading_takeOperand_enclosed {inside after : List Char} {filter : Filter}
    (expression : reading (takeExpression inside) = .ok (filter, ')' :: after)) :
    reading (takeOperand ('(' :: inside)) = .ok (filter, after) := by
  rw [reading_takeOperand_opened rfl, expression]
  rfl

theorem OperandText.ne_nil {chars : List Char} {filter : Filter}
    (operand : OperandText chars filter) : chars ≠ [] := by
  cases operand with
  | group _ _ _ => simp
  | nested _ _ _ => simp
  | negated keyword _ _ _ => simp [ne_nil_of_caseless keyword (by decide)]
  | bare accepted =>
    obtain ⟨left, _, read⟩ := reading_takeOperand_of_compare accepted
    intro empty
    rw [empty, reading_takeOperand rfl] at read
    cases read

/-- A negation is read as its operand is. -/
theorem reading_takeOperand_negated {word text rest : List Char} {filter : Filter}
    (keyword : Caseless (String.ofList word) "not") (stops : Stops Char.isAlpha text)
    (follows : startsParenthesis text = true ∨ startsBlank text = true)
    (inner : reading (takeOperand text) = .ok (filter, rest)) :
    reading (takeOperand (word ++ text)) = .ok (.not filter, rest) := by
  have letters := isAlpha_of_not keyword
  have nonempty := ne_nil_of_caseless keyword (by decide)
  have start : Text.skipBlank (word ++ text) = word ++ text :=
    skipBlank_of_stops (stops_of_word nonempty letters text)
  have unopened : startsParenthesis (word ++ text) = false := by
    obtain ⟨c, rest, rfl⟩ := List.exists_cons_of_ne_nil nonempty
    refine startsParenthesis_of_unopened fun first => ?_
    cases first
    exact absurd (letters '(' List.mem_cons_self) (by decide)
  rw [reading_takeOperand (by rw [start, unopened]), start,
    takeNot?_keyword keyword stops follows]
  dsimp only
  rw [inner]
  rfl

/-- An operand is read as what it spells, up to some blanks. -/
theorem reading_takeOperand_of_operandText {chars : List Char} {filter : Filter}
    (operand : OperandText chars filter) {after : List Char}
    (clear : EndsApart chars ∨ EndsToken after) :
    ∃ left, Blank left ∧ reading (takeOperand (chars ++ after)) = .ok (filter, left ++ after) := by
  have closed {trail : List Char} (blank : Blank trail) (after : List Char) :
      Text.skipBlank (trail ++ ')' :: after) = ')' :: after := blank.skip _
  induction operand generalizing after with
  | @group text filter lead trail accepted leadBlank trailBlank =>
    have regroup : '(' :: (lead ++ text.toList ++ trail ++ [')']) ++ after =
        '(' :: (lead ++ (text.toList ++ (trail ++ ')' :: after))) := by simp
    refine ⟨[], by simp [Blank], ?_⟩
    rw [regroup]
    refine reading_takeOperand_enclosed ?_
    rw [reading_takeExpression_congr (leadBlank.skip _),
      reading_of_parse (by rw [closed trailBlank]; simp) accepted, closed trailBlank]
    rfl
  | bare accepted =>
    obtain ⟨left, blank, read⟩ := reading_takeOperand_of_compare accepted
    exact ⟨left, blank, reading_takeOperand_append after read fun _ => clear⟩
  | @nested chars filter lead trail inner leadBlank trailBlank ih =>
    have regroup : '(' :: (lead ++ chars ++ trail ++ [')']) ++ after =
        '(' :: (lead ++ (chars ++ (trail ++ ')' :: after))) := by simp
    have token : EndsToken (trail ++ ')' :: after) :=
      trailBlank.endsToken (EndsFilter.parenthesis after).token
    obtain ⟨left, blank, read⟩ := ih (.inr token)
    refine ⟨[], by simp [Blank], ?_⟩
    rw [regroup]
    refine reading_takeOperand_enclosed ?_
    rw [reading_takeExpression_congr (leadBlank.skip _),
      reading_takeExpression_operand read blank,
      takeMore_ends (by rw [closed trailBlank]; simp), closed trailBlank]
    rfl
  | @negated word gap chars filter keyword gapBlank inner apart ih =>
    obtain ⟨left, blank, read⟩ := ih (clear.imp_left fun ends => ends.of_append inner.ne_nil)
    have regroup : word ++ gap ++ chars ++ after = word ++ (gap ++ chars ++ after) := by simp
    refine ⟨left, blank, ?_⟩
    rw [regroup]
    refine reading_takeOperand_negated keyword (apart.noAlpha after) (apart.follows after) ?_
    rw [List.append_assoc, reading_takeOperand_congr (gapBlank.skip _), read]

/-- A text of joined operands is read as the tree that it spells, to which what follows is
joined. -/
theorem reading_takeExpression_of_joinedText {chars : List Char} {filter : Filter}
    (joined : JoinedText chars filter) {after : List Char}
    (clear : EndsApart chars ∨ EndsToken after) :
    reading (takeExpression (chars ++ after)) = (do
      let (more, rest) ← passing (takeMore after)
      .ok (join filter more, rest)) := by
  induction joined generalizing after with
  | operand only =>
    obtain ⟨left, blank, read⟩ := reading_takeOperand_of_operandText only clear
    exact reading_takeExpression_operand read blank
  | @joined first before word gap chars left right op _ beforeBlank endsApart keyword gapBlank
      rightText startsApart ih =>
    have regroup : first ++ before ++ word ++ gap ++ chars ++ after =
        first ++ (before ++ (word ++ (gap ++ chars ++ after))) := by simp
    have letters := isAlpha_of_caseless keyword op.isAlpha_word
    have nonempty := ne_nil_of_caseless keyword (by cases op <;> decide)
    have start : Text.skipBlank (before ++ (word ++ (gap ++ chars ++ after))) =
        word ++ (gap ++ chars ++ after) := by
      rw [beforeBlank.skip]
      exact skipBlank_of_stops (stops_of_word nonempty letters _)
    have ended : EndsApart first ∨ EndsToken (before ++ (word ++ (gap ++ chars ++ after))) := by
      cases before with
      | nil => exact .inl (by simpa using endsApart)
      | cons c rest =>
        refine .inr ?_
        rintro _ ⟨⟩
        exact .inl (beforeBlank c List.mem_cons_self)
    obtain ⟨rest, blank, read⟩ := reading_takeOperand_of_operandText rightText
      (clear.imp_left fun ends => ends.of_append rightText.ne_nil)
    rw [regroup, ih ended, passing_takeMore, start,
      takeLogical?_keyword keyword (startsApart.noAlpha after)]
    dsimp only
    rw [if_pos (startsApart.follows after), List.append_assoc,
      reading_takeOperand_congr (gapBlank.skip _), read]
    dsimp only [bind, Except.bind]
    rw [passing_takeMore_congr (blank.skip after)]
    cases passing (takeMore after) <;> rfl

/-- **A filter put together from accepted ones is the tree of them, grouped from the left.** -/
theorem parse_of_joinedText {chars : List Char} {filter : Filter}
    (joined : JoinedText chars filter) {lead trail : List Char} (leadBlank : Blank lead)
    (trailBlank : Blank trail) :
    parse (String.ofList (lead ++ chars ++ trail)) = .ok filter := by
  have none : Text.skipBlank trail = [] := List.dropWhile_eq_nil_iff.mpr trailBlank
  have ends : EndsToken trail := by
    simpa using trailBlank.endsToken (EndsFilter.nil.token)
  refine parse_eq_ok_iff.mpr ⟨[], ?_, rfl⟩
  rw [String.toList_ofList, List.append_assoc, reading_takeExpression_congr (leadBlank.skip _),
    reading_takeExpression_of_joinedText joined (.inr ends),
    takeMore_ends (by rw [none]; exact .nil), none]
  rfl

def has (name : String) : Filter := .compare ⟨none, [⟨name, none⟩]⟩ .present .null

theorem mixedOperands_grouped : ∃ chars,
    JoinedText chars (.logical .or (.logical .and (has "a") (.not (has "b"))) (has "c")) ∧
    String.ofList ([] ++ chars ++ [' ']) = "( a pr )And not(b pr)or c pr " ∧
    parse (String.ofList ([] ++ chars ++ [' '])) =
      .ok (.logical .or (.logical .and (has "a") (.not (has "b"))) (has "c")) := by
  have a : parse "a pr" = .ok (has "a") := by decide +kernel
  have b : parse "b pr" = .ok (has "b") := by decide +kernel
  have c : parse "c pr" = .ok (has "c") := by decide +kernel
  have negation : Caseless (String.ofList "not".toList) "not" := by decide
  have conjunction : Caseless (String.ofList "And".toList) LogicalOp.and.word := by decide
  have disjunction : Caseless (String.ofList "or".toList) LogicalOp.or.word := by decide
  have none : Blank [] := by simp [Blank]
  have one : Blank [' '] := List.all_eq_true.mp (by decide)
  have blank (text : List Char) : StartsApart (' ' :: text) := ⟨' ', rfl, .inl (by decide)⟩
  have negated : OperandText _ (.not (has "b")) :=
    .negated negation none (.group b none none) ⟨'(', rfl, .inr rfl⟩
  have left := JoinedText.joined (.operand (.group a one one)) none ⟨')', rfl, .inr rfl⟩
    conjunction one negated (blank _)
  have joined := JoinedText.joined left none ⟨')', rfl, .inr rfl⟩ disjunction one (.bare c)
    (blank _)
  exact ⟨_, joined, by decide, parse_of_joinedText joined none one⟩

end Filter
end Scim
