import Scim.Proofs.Path.Brackets
import Scim.Proofs.Path.Lookahead

/-! Filters within longer texts. What is read from the text of a filter is read from it as well
where a bracket or a parenthesis closes behind it, so filters that were accepted by themselves can
be put in parentheses, be joined and select the elements of a path. -/
namespace Scim

namespace Filter

variable {after : List Char}

/-- A text is accepted where an expression leaves nothing but blanks. -/
theorem parse_eq_ok_iff {text : String} {filter : Filter} : parse text = .ok filter ↔
    ∃ rest, reading (takeExpression text.toList) = .ok (filter, rest) ∧
      Text.skipBlank rest = [] := by
  rw [parse]
  cases taken : takeExpression text.toList with
  | error fault => simp [bind, Except.bind, Except.mapError]
  | ok found =>
    dsimp only [bind, Except.bind, reading_ok]
    split
    next blank =>
      constructor
      · rintro ⟨⟩
        exact ⟨found.rest, rfl, blank⟩
      · rintro ⟨rest, ⟨⟩, _⟩
        rfl
    next more =>
      constructor
      · rintro ⟨⟩
      · rintro ⟨rest, ⟨⟩, blank⟩
        exact absurd blank more

/-- Of a filter that was accepted by itself nothing is left before what ends it. -/
theorem reading_of_parse (ends : EndsFilter (Text.skipBlank after)) {text : String}
    {filter : Filter} (parsed : parse text = .ok filter) :
    reading (takeExpression (text.toList ++ after)) = .ok (filter, Text.skipBlank after) := by
  obtain ⟨rest, read, blank⟩ := parse_eq_ok_iff.mp parsed
  have left : Text.skipBlank (rest ++ after) = Text.skipBlank after := by
    rw [← skipBlank_skipBlank_append, blank, List.nil_append]
  have expression := reading_takeExpression_append after read (by rwa [left])
  rwa [left] at expression

/-- In parentheses an accepted filter is an operand. -/
theorem reading_takeOperand_of_parse {text : String} {filter : Filter}
    (parsed : parse text = .ok filter) (after : List Char) :
    reading (takeOperand ('(' :: (text.toList ++ ')' :: after))) = .ok (filter, after) := by
  have ends : EndsFilter (Text.skipBlank (')' :: after)) := .parenthesis after
  rw [reading_takeOperand_opened rfl, reading_of_parse ends parsed]
  rfl

theorem parse_or {first second : String} {left right : Filter} (leftParsed : parse first = .ok left)
    (rightParsed : parse second = .ok right) :
    parse ("(" ++ first ++ ") or (" ++ second ++ ")") = .ok (.logical .or left right) := by
  have text : ("(" ++ first ++ ") or (" ++ second ++ ")").toList = '(' :: (first.toList ++
      ')' :: ' ' :: ("or".toList ++ ' ' :: '(' :: (second.toList ++ [')']))) := by simp
  have operator : Text.skipBlank (' ' :: ("or".toList ++ ' ' :: '(' :: (second.toList ++ [')']))) =
      LogicalOp.or.word.toList ++ ' ' :: '(' :: (second.toList ++ [')']) := rfl
  have more : passing (takeMore
      (' ' :: ("or".toList ++ ' ' :: '(' :: (second.toList ++ [')'])))) =
        .ok ([(.or, right)], []) := by
    rw [passing_takeMore, operator, takeLogical?_word .or (by simp)]
    dsimp only
    rw [if_pos (.inr rfl), reading_takeOperand_space, reading_takeOperand_of_parse rightParsed []]
    dsimp only [bind, Except.bind]
    rw [takeMore_nil]
  have expression := reading_takeExpression ("(" ++ first ++ ") or (" ++ second ++ ")").toList
  rw [text, reading_takeOperand_of_parse leftParsed] at expression
  dsimp only [bind, Except.bind] at expression
  rw [more] at expression
  obtain ⟨shorter, taken⟩ := reading_eq_ok.mp expression
  rw [parse, text, taken]
  rfl

end Filter

namespace Path

/-- A filter can be put behind segments that have none. -/
theorem takeSegments_selected {body inside : List Char} {init : List Segment} {name : String}
    (accepted : takeSegments false body = .ok (init ++ [⟨name, none⟩]))
    (plain : ∀ segment ∈ init, segment.filter = none) {filter : Filter}
    (selected : readingOption (takeSelection false ('[' :: inside)) = .ok (some filter, [])) :
    '[' ∉ body ∧ takeSegments false (body ++ '[' :: inside) = .ok (init ++ [⟨name, some filter⟩]) := by
  induction init generalizing body with
  | nil =>
    obtain ⟨spelled, given, tail, rest, more, rfl, nonempty, all, _, chosen, same, next⟩ :=
      takeSegments_parts accepted
    cases same
    rcases takeSelection_sound chosen with ⟨_, rfl, _⟩ | ⟨_, _, _, other, _⟩
    · rcases next with ⟨rfl, _⟩ | ⟨_, _, _, none⟩
      · have stopped : Stops isNameChar ('[' :: inside) := by simp; decide
        obtain ⟨shorter, taken⟩ := takeRun_append nonempty all stopped
        rw [List.append_nil, takeSegments_eq, taken]
        simp only [Option.map_some, Taken.pair, selected, bind, Except.bind, List.nil_append]
        exact ⟨fun member => (not_bracket (.inl (all _ member))).1 rfl, trivial⟩
      · exact absurd rfl (takeSegments_sound none).1
    · cases other
  | cons first others ih =>
    obtain ⟨spelled, given, tail, rest, more, rfl, nonempty, all, stops, chosen, same, next⟩ :=
      takeSegments_parts accepted
    cases same
    obtain ⟨none, later⟩ := List.forall_mem_cons.mp plain
    dsimp only at none
    subst none
    rcases takeSelection_sound chosen with ⟨_, rfl, _⟩ | ⟨_, _, _, other, _⟩
    · rcases next with ⟨_, absent⟩ | ⟨after, rfl, _, moreRead⟩
      · simp at absent
      · obtain ⟨noBracket, extended⟩ := ih moreRead later
        have stopped : Stops isNameChar ('.' :: (after ++ '[' :: inside)) := by simp; decide
        have unopened : ('.' :: (after ++ '[' :: inside)).head? ≠ some '[' := by simp
        obtain ⟨shorter, taken⟩ := takeRun_append nonempty all stopped
        rw [List.append_assoc, List.cons_append, takeSegments_eq, taken]
        simp only [Option.map_some, Taken.pair, takeSelection_unopened false unopened,
          readingOption_none, bind, Except.bind, Option.isSome_none, Bool.or_false, extended,
          List.cons_append]
        refine ⟨?_, trivial⟩
        simpa using ⟨fun member => (not_bracket (.inl (all _ member))).1 rfl, noBracket⟩
    · cases other

theorem dropWhile_bracket_eq_nil {text : List Char} (absent : '[' ∉ text.dropWhile (· != '[')) :
    text.dropWhile (· != '[') = [] := by
  cases left : text.dropWhile (· != '[') with
  | nil => rfl
  | cons c rest =>
    have stops := stops_dropWhile (· != '[') text
    rw [left, stops_cons, bne_eq_false_iff_eq] at stops
    rw [left, stops] at absent
    exact absurd List.mem_cons_self absent

/-- **A filter behind a path selects the elements of its last segment.** -/
theorem parse_filtered {text : String} {schema : Option String} {init : List Segment} {name : String}
    (parsed : parse text = .ok ⟨schema, init ++ [⟨name, none⟩]⟩)
    (plain : ∀ segment ∈ init, segment.filter = none) {condition : String} {filter : Filter}
    (filterParsed : Filter.parse condition = .ok filter) :
    parse (text ++ "[" ++ condition ++ "]") = .ok ⟨schema, init ++ [⟨name, some filter⟩]⟩ := by
  have selected : readingOption (takeSelection false ('[' :: (condition.toList ++ [']']))) =
      .ok (some filter, []) := by
    have ends : EndsFilter (Text.skipBlank [']']) := .bracket []
    rw [readingOption_takeSelection, Filter.reading_of_parse ends filterParsed]
    rfl
  cases given : text.isEmpty with
  | true =>
    rw [parse, given] at parsed
    have none := congrArg Path.segments (Except.ok.inj parsed)
    simp [root] at none
  | false =>
    obtain ⟨spelled, accepted⟩ := (parse_eq_ok_iff given).mp parsed
    obtain ⟨noBracket, extended⟩ := takeSegments_selected accepted plain selected
    have whole := dropWhile_bracket_eq_nil (mt (List.mem_append_right _) noBracket)
    have all : ∀ c ∈ text.toList, (c != '[') = true := List.dropWhile_eq_nil_iff.mp whole
    have chars : (text ++ "[" ++ condition ++ "]").toList =
        text.toList ++ '[' :: (condition.toList ++ [']']) := by simp
    have stops : Stops (· != '[') ('[' :: (condition.toList ++ [']'])) := by simp
    have longer : (text ++ "[" ++ condition ++ "]").isEmpty = false := by
      simp [String.isEmpty_eq_false_iff]
    rw [whole, List.append_nil, List.takeWhile_eq_self_iff.mpr all] at extended
    rw [List.takeWhile_eq_self_iff.mpr all] at spelled
    rw [parse_eq_ok_iff longer, chars, takeWhile_append_of_stops all stops,
      dropWhile_append_of_stops all stops]
    exact ⟨spelled, extended⟩

end Path
end Scim
