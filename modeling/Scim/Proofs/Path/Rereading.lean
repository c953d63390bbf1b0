import Scim.Proofs.Path.WellFormed

/-! Printed filters and paths are read back. A filter is read up to whatever ends an operand; what
then follows it joins from the left, which is how the printer leaves out parentheses. -/
namespace Scim

namespace Filter

def operandChars (filter : Filter) : List Char :=
  if filter.isLogical then '(' :: filter.chars ++ [')'] else filter.chars

theorem chars_logical (op : LogicalOp) (left right : Filter) (after : List Char) :
    (logical op left right).chars ++ after =
      left.chars ++ ' ' :: (op.word.toList ++ ' ' :: (right.operandChars ++ after)) := by
  simp [chars, operandChars]

/-- Reading an operand starts behind the blanks. -/
theorem reading_takeOperand_congr {text other : List Char}
    (same : Text.skipBlank text = Text.skipBlank other) :
    reading (takeOperand text) = reading (takeOperand other) := by
  cases start : Text.skipBlank other with
  | nil =>
    have unopened : startsParenthesis (Text.skipBlank other) = false := by rw [start]; rfl
    rw [reading_takeOperand unopened, reading_takeOperand (same ▸ unopened), same]
  | cons c rest =>
    by_cases opened : c = '('
    · subst opened
      rw [reading_takeOperand_opened start, reading_takeOperand_opened (same.trans start)]
    · have unopened : startsParenthesis (Text.skipBlank other) = false := by
        rw [start, startsParenthesis]
        exact fun rest same => opened (List.cons.inj same).1
      rw [reading_takeOperand unopened, reading_takeOperand (same ▸ unopened), same]

theorem reading_takeOperand_space (text : List Char) :
    reading (takeOperand (' ' :: text)) = reading (takeOperand text) :=
  reading_takeOperand_congr (skipBlank_space text)

theorem takeMore_closed (rest : List Char) :
    passing (takeMore (')' :: rest)) = .ok ([], ')' :: rest) := by
  rw [passing_takeMore]
  rfl

theorem takeMore_bracket (rest : List Char) :
    passing (takeMore (']' :: rest)) = .ok ([], ']' :: rest) := by
  rw [passing_takeMore]
  rfl

theorem takeMore_nil : passing (takeMore []) = .ok ([], []) := by
  rw [passing_takeMore]
  rfl

theorem reading_takeOperand_attribute {path : Path} (attributed : path.IsAttribute)
    (tail : List Char) :
    reading (takeOperand (path.chars ++ ' ' :: tail)) =
      reading (takeComparison (path.chars ++ ' ' :: tail)) := by
  obtain ⟨c, rest, first⟩ := List.exists_cons_of_ne_nil (chars_ne_nil attributed)
  have allowed : isAttributeChar c = true := attributed.allowed c (by simp [first])
  have unblank : Text.skipBlank (path.chars ++ ' ' :: tail) = path.chars ++ ' ' :: tail := by
    refine skipBlank_of_stops ?_
    rw [first]
    exact (stops_cons _ c _).mpr (isBlank_of_isAttributeChar allowed)
  have unopened : startsParenthesis (Text.skipBlank (path.chars ++ ' ' :: tail)) = false := by
    rw [unblank, first, List.cons_append, startsParenthesis]
    intro rest same
    cases (List.cons.inj same).1
    simp [isAttributeChar, isNameChar] at allowed
  have noKeyword : takeNot? (path.chars ++ ' ' :: tail) = none :=
    takeNot?_attribute attributed.allowed (by simp; decide) attributed.notKeyword
  rw [reading_takeOperand unopened, unblank, noKeyword]
  rfl

theorem stops_literal {value read : Json} (reread : value.reread? = some read)
    (after : List Char) : Stops Text.isBlank (value.chars ++ after) := by
  cases value with
  | null | string _ =>
    simp [Json.chars, Json.stringChars]
    decide
  | bool truth => cases truth <;> (simp [Json.chars]; decide)
  | number number =>
    obtain ⟨c, rest, written, _, numeric⟩ := chars_head number
    rw [Json.chars, written]
    refine (stops_cons _ c _).mpr (isBlank_of_isAttributeChar (isAttributeChar_of_isNameChar ?_))
    rcases numeric with rfl | digit
    · decide
    · simp [isNameChar, Char.isAlphanum, digit]
  | array | object => simp [Json.reread?] at reread

theorem reading_takeOperand_compare {path : Path} (attributed : path.IsAttribute) (op : CompareOp)
    (value : Json) {read : Filter} (reread : (compare path op value).reread? = some read)
    {after : List Char} (ends : EndsOperand after) :
    reading (takeOperand ((compare path op value).chars ++ after)) = .ok (read, after) := by
  have word (rest : List Char) : Stops Text.isBlank (op.word.toList ++ rest) :=
    stops_of_word (by cases op <;> decide) op.isAlpha_word rest
  have separated : Stops isAttributeChar (' ' :: (op.word.toList ++ after)) := by simp; decide
  simp only [reread?] at reread
  by_cases present : op = .present
  · rw [if_pos present] at reread
    have text : (compare path op value).chars ++ after =
        path.chars ++ ' ' :: (op.word.toList ++ after) := by simp [chars, present]
    rw [text, reading_takeOperand_attribute attributed, reading_takeComparison,
      reading_takeAttribute_append attributed (by simp; decide)]
    dsimp only [bind, Except.bind]
    rw [reading_takeBlank_space (word after)]
    dsimp only
    rw [reading_takeOperator_word op ends.noAlpha]
    dsimp only
    rw [if_pos present, ← Option.some.inj reread, present]
  · rw [if_neg present] at reread
    obtain ⟨found, valueRead, rfl⟩ := Option.map_eq_some_iff.mp reread
    have text : (compare path op value).chars ++ after =
        path.chars ++ ' ' :: (op.word.toList ++ ' ' :: (value.chars ++ after)) := by
      simp [chars, present]
    rw [text, reading_takeOperand_attribute attributed, reading_takeComparison,
      reading_takeAttribute_append attributed (by simp; decide)]
    dsimp only [bind, Except.bind]
    rw [reading_takeBlank_space (word _)]
    dsimp only
    rw [reading_takeOperator_word op (by simp)]
    dsimp only
    rw [if_neg present, reading_takeBlank_space (stops_literal valueRead after)]
    dsimp only
    rw [reading_takeLiteral valueRead ends]

/-- Between parentheses a filter is an operand, with or without `and` and `or` in it. -/
theorem reading_takeOperand_parenthesised {text : List Char} {read : Filter} {after : List Char}
    (inside : reading (takeExpression (text ++ ')' :: after)) = (do
      let (more, rest) ← passing (takeMore (')' :: after))
      .ok (join read more, rest))) :
    reading (takeOperand ('(' :: text ++ ')' :: after)) = .ok (read, after) := by
  have opened : Text.skipBlank ('(' :: text ++ ')' :: after) = '(' :: (text ++ ')' :: after) := rfl
  rw [reading_takeOperand_opened opened, inside, takeMore_closed]
  rfl

/-- The text of a filter is read as the filter, and what follows it is joined to it. -/
theorem reading_takeExpression_chars (filter : Filter) (printable : filter.Printable)
    {read : Filter} (reread : filter.reread? = some read) :
    (∀ after, EndsOperand after → reading (takeExpression (filter.chars ++ after)) = (do
      let (more, rest) ← passing (takeMore after)
      .ok (join read more, rest))) ∧
    (∀ after, EndsOperand after →
      reading (takeOperand (filter.operandChars ++ after)) = .ok (read, after)) := by
  -- An operand that no `and` or `or` joins is an expression by itself.
  have single {text : List Char} {read : Filter}
      (operand : ∀ after, EndsOperand after →
        reading (takeOperand (text ++ after)) = .ok (read, after)) (after : List Char)
      (ends : EndsOperand after) : reading (takeExpression (text ++ after)) = (do
        let (more, rest) ← passing (takeMore after)
        .ok (join read more, rest)) := by
    rw [reading_takeExpression, operand after ends]
    rfl
  induction filter generalizing read with
  | compare path op value =>
    have operand (after : List Char) (ends : EndsOperand after) :=
      reading_takeOperand_compare printable.1 op value reread ends
    exact ⟨single operand, operand⟩
  | not inner ih =>
    obtain ⟨found, innerRead, rfl⟩ := Option.map_eq_some_iff.mp reread
    have operand (after : List Char) (_ : EndsOperand after) :
        reading (takeOperand ((not inner).chars ++ after)) = .ok (not found, after) := by
      have text : (not inner).chars ++ after =
          "not".toList ++ ' ' :: ('(' :: inner.chars ++ ')' :: after) := by simp [chars]
      have keyword : (takeNot? ("not".toList ++ ' ' :: ('(' :: inner.chars ++ ')' :: after))).map
          Taken.pair = some ("not".toList, ' ' :: ('(' :: inner.chars ++ ')' :: after)) :=
        takeNot?_keyword (by decide) (by simp) (.inr rfl)
      have opened : Text.skipBlank ("not".toList ++ ' ' :: ('(' :: inner.chars ++ ')' :: after)) =
          "not".toList ++ ' ' :: ('(' :: inner.chars ++ ')' :: after) :=
        skipBlank_of_stops (stops_of_word (by decide) (List.all_eq_true.mp (by decide)) _)
      rw [text, reading_takeOperand (by rw [opened]; rfl), opened, keyword]
      dsimp only
      rw [reading_takeOperand_space,
        reading_takeOperand_parenthesised ((ih printable innerRead).1 _ (by simp))]
      rfl
    exact ⟨single operand, operand⟩
  | logical op left right left_ih right_ih =>
    obtain ⟨foundLeft, leftRead, rest⟩ := Option.bind_eq_some_iff.mp reread
    obtain ⟨foundRight, rightRead, rfl⟩ := Option.map_eq_some_iff.mp rest
    have joined := (left_ih printable.1 leftRead).1
    have operand := (right_ih printable.2 rightRead).2
    have expression (after : List Char) (ends : EndsOperand after) :
        reading (takeExpression ((logical op left right).chars ++ after)) = (do
          let (more, rest) ← passing (takeMore after)
          .ok (join (logical op foundLeft foundRight) more, rest)) := by
      have opened (tail : List Char) : Text.skipBlank (' ' :: (op.word.toList ++ tail)) =
          op.word.toList ++ tail := by
        rw [skipBlank_space]
        exact skipBlank_of_stops (stops_of_word (by cases op <;> decide) op.isAlpha_word _)
      rw [chars_logical, joined _ (by simp), passing_takeMore, opened,
        takeLogical?_word op (by simp)]
      dsimp only
      rw [if_pos (.inr rfl), reading_takeOperand_space, operand after ends]
      dsimp only [bind, Except.bind]
      cases passing (takeMore after) <;> rfl
    refine ⟨expression, fun after _ => ?_⟩
    have text : (logical op left right).operandChars ++ after =
        '(' :: (logical op left right).chars ++ ')' :: after := by simp [operandChars, isLogical]
    rw [text]
    exact reading_takeOperand_parenthesised (expression _ (by simp))

/-- Parsing the text of a filter gives what rereading it gives. -/
theorem parse_render_of_reread? {filter read : Filter} (printable : filter.Printable)
    (reread : filter.reread? = some read) : parse filter.render = .ok read := by
  have expression := (reading_takeExpression_chars filter printable reread).1 [] (by simp)
  rw [List.append_nil, takeMore_nil] at expression
  obtain ⟨shorter, taken⟩ := reading_eq_ok.mp expression
  rw [parse, render, String.toList_ofList, taken]
  rfl

end Filter

namespace Path

open Scim.Filter

theorem readingOption_takeSelection_chars {filter read : Filter} (printable : filter.Printable)
    (reread : filter.reread? = some read) (after : List Char) :
    readingOption (takeSelection false ('[' :: filter.chars ++ ']' :: after)) =
      .ok (some read, after) := by
  rw [List.cons_append, readingOption_takeSelection,
    (reading_takeExpression_chars filter printable reread).1 _ (by simp), takeMore_bracket]
  rfl

theorem moreSegmentsChars_cases (segments : List Segment) :
    moreSegmentsChars segments = [] ∧ segments = [] ∨
      ∃ next rest, segments = next :: rest ∧
        moreSegmentsChars segments = '.' :: segmentsChars segments := by
  cases segments with
  | nil => exact .inl ⟨rfl, rfl⟩
  | cons next rest => exact .inr ⟨next, rest, rfl, rfl⟩

theorem stops_moreSegmentsChars (segments : List Segment) :
    Stops isNameChar (moreSegmentsChars segments) ∧
      (moreSegmentsChars segments).head? ≠ some '[' := by
  cases segments with
  | nil => simp [moreSegmentsChars]
  | cons next rest =>
    simp [moreSegmentsChars]
    decide

theorem takeSegments_cons {filtered : Bool} {segment read : Segment} (named : segment.IsNamed)
    (printable : ∀ filter ∈ segment.filter, filter.Printable)
    (reread : segment.reread? = some read)
    (single : filtered = true → segment.filter = none) (more : List Segment) :
    takeSegments filtered (segmentsChars (segment :: more)) =
      match more with
      | [] => .ok [read]
      | more => (takeSegments (filtered || segment.filter.isSome) (segmentsChars more)).map
          (read :: ·) := by
  obtain ⟨stops, unopened⟩ := stops_moreSegmentsChars more
  have some : segment.name.toList ≠ [] := by simpa using named.some
  have selected : ∃ tail, segmentsChars (segment :: more) = segment.name.toList ++ tail ∧
      Stops isNameChar tail ∧ readingOption (takeSelection filtered tail) =
        .ok (read.filter, moreSegmentsChars more) ∧ read.name = segment.name ∧
        read.filter.isSome = segment.filter.isSome := by
    cases segment with
    | mk name filter =>
      cases filter with
      | none =>
        cases reread
        exact ⟨moreSegmentsChars more, rfl, stops,
          by rw [takeSelection_unopened filtered unopened]; rfl, rfl, rfl⟩
      | some filter =>
        obtain ⟨found, filterRead, rfl⟩ := Option.map_eq_some_iff.mp reread
        have unfiltered : filtered = false := by
          cases filtered with
          | false => rfl
          | true => exact absurd (single rfl) (by simp)
        refine ⟨'[' :: filter.chars ++ ']' :: moreSegmentsChars more, ?_, ?_, ?_, rfl, rfl⟩
        · simp [segmentsChars, Segment.chars]
        · simp
          decide
        · rw [unfiltered]
          exact readingOption_takeSelection_chars (printable filter rfl) filterRead _
  obtain ⟨tail, text, tailStops, selection, sameName, sameFilter⟩ := selected
  obtain ⟨shorter, taken⟩ := takeRun_append some named.allowed tailStops
  rw [takeSegments_eq, text, taken]
  simp only [Option.map_some, Taken.pair, selection, bind, Except.bind, String.ofList_toList]
  have same : Segment.mk segment.name read.filter = read := by
    rw [← sameName]
    cases read
    rfl
  rw [same, sameFilter]
  rcases moreSegmentsChars_cases more with ⟨ended, rfl⟩ | ⟨next, rest, rfl, parted⟩
  · rw [ended]
  · rw [parted]
    cases takeSegments (filtered || segment.filter.isSome) (segmentsChars (next :: rest)) <;> rfl

theorem takeSegments_segmentsChars {segments read : List Segment} {filtered : Bool}
    (nonempty : segments ≠ []) (named : ∀ segment ∈ segments, segment.IsNamed)
    (single : filterCount segments + (if filtered then 1 else 0) ≤ 1)
    (printable : ∀ segment ∈ segments, ∀ filter ∈ segment.filter, filter.Printable)
    (reread : segments.mapM Segment.reread? = some read) :
    takeSegments filtered (segmentsChars segments) = .ok read := by
  induction segments generalizing filtered read with
  | nil => exact absurd rfl nonempty
  | cons segment more ih =>
    simp only [List.mapM_cons, Option.bind_eq_bind, Option.pure_def, Option.bind_eq_some_iff,
      Option.some.injEq] at reread
    obtain ⟨first, firstRead, rest, restRead, rfl⟩ := reread
    simp only [List.forall_mem_cons] at named printable
    have count : filterCount (segment :: more) =
        filterCount more + (if segment.filter.isSome then 1 else 0) := by
      simp [filterCount, List.countP_cons]
    rw [takeSegments_cons named.1 printable.1 firstRead ?_ more]
    · cases more with
      | nil =>
        cases restRead
        rfl
      | cons next others =>
        dsimp only
        rw [ih (by simp) named.2 ?_ printable.2 restRead]
        · rfl
        · cases filtered <;> cases h : segment.filter.isSome <;> simp_all
    · rintro rfl
      cases h : segment.filter with
      | none => rfl
      | some filter => simp [h] at count; simp at single; omega

theorem ahead_of_bracket {segments : List Segment}
    (named : ∀ segment ∈ segments, segment.IsNamed) :
    ∀ c ∈ (segmentsChars segments).takeWhile (· != '['), isNameChar c = true ∨ c = '.' := by
  have ahead (name tail : List Char) (allowed : ∀ c ∈ name, isNameChar c = true ∨ c = '.')
      (rest : ∀ c ∈ tail.takeWhile (· != '['), isNameChar c = true ∨ c = '.') :
      ∀ c ∈ (name ++ tail).takeWhile (· != '['), isNameChar c = true ∨ c = '.' := by
    have all : ∀ c ∈ name, (c != '[') = true := by
      intro c member
      rcases allowed c member with letter | rfl
      · refine bne_iff_ne.mpr ?_
        rintro rfl
        simp [isNameChar] at letter
      · decide
    intro c member
    rw [List.takeWhile_append_of_pos all] at member
    rcases List.mem_append.mp member with left | right
    · exact allowed c left
    · exact rest c right
  induction segments with
  | nil => simp [segmentsChars]
  | cons segment more ih =>
    simp only [List.forall_mem_cons] at named
    have rest : ∀ c ∈ (moreSegmentsChars more).takeWhile (· != '['),
        isNameChar c = true ∨ c = '.' := by
      rcases moreSegmentsChars_cases more with ⟨ended, _⟩ | ⟨next, others, _, parted⟩
      · simp [ended]
      · rw [parted]
        exact ahead ['.'] _ (by simp) (ih named.2)
    have name : ∀ c ∈ segment.name.toList, isNameChar c = true ∨ c = '.' :=
      fun c member => .inl (named.1.allowed c member)
    cases segment with
    | mk spelling filter =>
      cases filter with
      | none => exact ahead _ _ name rest
      | some filter =>
        have text : segmentsChars (⟨spelling, some filter⟩ :: more) = spelling.toList ++
            '[' :: (filter.chars ++ ']' :: moreSegmentsChars more) := by
          simp [segmentsChars, Segment.chars]
        rw [text]
        exact ahead _ _ name (by simp)

theorem noColon_ahead {segments : List Segment} (named : ∀ segment ∈ segments, segment.IsNamed) :
    ':' ∉ (segmentsChars segments).takeWhile (· != '[') := by
  intro member
  rcases ahead_of_bracket named ':' member with name | point
  · simp [isNameChar] at name
  · simp at point

section

variable {path : Path}

/-- The URN of a printed path is cut off as it was put on. -/
theorem splitUrn_chars (named : ∀ segment ∈ path.segments, segment.IsNamed)
    (urn : ∀ schema ∈ path.schema, StartsUrn schema.toList ∧ '[' ∉ schema.toList) :
    ∃ ahead, splitUrn (path.chars.takeWhile (· != '[')) =
        (path.schema.map String.toList, ahead) ∧
      ahead ++ path.chars.dropWhile (· != '[') = segmentsChars path.segments := by
  have noColon := noColon_ahead named
  refine ⟨(segmentsChars path.segments).takeWhile (· != '['), ?_⟩
  cases path with
  | mk schema segments =>
    cases schema with
    | none => exact ⟨splitUrn_unqualified noColon, List.takeWhile_append_dropWhile⟩
    | some spelled =>
      obtain ⟨starts, noBracket⟩ := urn spelled rfl
      obtain ⟨ahead, behind⟩ := ahead_qualified noBracket (segmentsChars segments)
      rw [chars, ahead, behind]
      refine ⟨?_, List.takeWhile_append_dropWhile⟩
      exact splitUrn_qualified starts noColon

theorem chars_ne_nil (some : path.segments ≠ [])
    (named : ∀ segment ∈ path.segments, segment.IsNamed) : path.chars ≠ [] := by
  cases path with
  | mk schema segments =>
    cases schema with
    | some urn => simp [chars]
    | none =>
      obtain ⟨segment, more, rfl⟩ := List.exists_cons_of_ne_nil some
      have named := (named segment (by simp)).some
      cases segment with
      | mk name filter => cases filter <;> simp_all [chars, segmentsChars, Segment.chars]

/-- The text of a path is parsed as its segments are read. -/
theorem parse_render (some : path.segments ≠ [])
    (named : ∀ segment ∈ path.segments, segment.IsNamed)
    (urn : ∀ schema ∈ path.schema, StartsUrn schema.toList ∧ '[' ∉ schema.toList) :
    parse path.render = ((takeSegments false (segmentsChars path.segments)).map fun segments =>
      ⟨path.schema, segments⟩).mapError (Fault.toError path.render) := by
  obtain ⟨ahead, cut, body⟩ := splitUrn_chars named urn
  have given : path.render.isEmpty = false := by
    simp [render, chars_ne_nil some named]
  have schema : (path.schema.map String.toList).map String.ofList = path.schema := by
    cases path.schema <;> simp
  rw [parse, given]
  simp only [render, String.toList_ofList, cut, body, schema]
  rfl

/-- Parsing the text of a path gives what rereading it gives. -/
theorem parse_render_of_reread? {read : Path} (spelled : path.IsSpelled)
    (reread : path.reread? = some read) : parse path.render = .ok read := by
  obtain ⟨segments, segmentsRead, rfl⟩ := Option.map_eq_some_iff.mp reread
  have taken : takeSegments false (segmentsChars path.segments) = .ok segments :=
    takeSegments_segmentsChars spelled.some spelled.named (by simpa using spelled.single)
      spelled.printable segmentsRead
  rw [parse_render spelled.some spelled.named spelled.urn, taken]
  rfl

end

theorem reread?_segment {segment : Segment}
    (reread : ∀ filter ∈ segment.filter, filter.reread? = some filter) :
    segment.reread? = some segment := by
  cases segment with
  | mk name filter =>
    cases filter with
    | none => rfl
    | some filter =>
      simp only [Segment.reread?, reread filter rfl]
      rfl

theorem reread?_segments {segments : List Segment}
    (reread : ∀ segment ∈ segments, ∀ filter ∈ segment.filter, filter.reread? = some filter) :
    segments.mapM Segment.reread? = some segments := by
  induction segments with
  | nil => rfl
  | cons segment more ih =>
    obtain ⟨first, others⟩ := List.forall_mem_cons.mp reread
    rw [List.mapM_cons, reread?_segment first, ih others]
    rfl

theorem WellFormed.reread? {path : Path}
    (formed : ∀ segment ∈ path.segments, ∀ filter ∈ segment.filter, filter.WellFormed) :
    path.reread? = some path := by
  have same := reread?_segments fun segment member filter given =>
    (formed segment member filter given).reread?
  rw [Path.reread?, same]
  cases path
  rfl

end Path

/-- Parsing inverts printing on well-formed filters. -/
theorem Filter.parse_render_of_wellFormed {filter : Filter} (formed : filter.WellFormed) :
    parse filter.render = .ok filter :=
  parse_render_of_reread? formed.printable formed.reread?

/-- Parsing inverts printing on well-formed paths. -/
theorem Path.parse_render_of_wellFormed {path : Path} (formed : path.WellFormed) :
    parse path.render = .ok path := by
  rcases formed with rfl | ⟨spelled, formed⟩
  · rfl
  · exact parse_render_of_reread? spelled (WellFormed.reread? formed)

end Scim
