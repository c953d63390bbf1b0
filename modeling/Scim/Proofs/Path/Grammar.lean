import Scim.Proofs.Text.Readers

/-! The grammar of paths and filters as equations between plain readings. -/
namespace Scim

def readRun (p : Char → Bool) (text : List Char) : Except Fault (List Char × List Char) :=
  match (takeRun p text).map Taken.pair with
  | some run => .ok run
  | none => .error (.unexpected text)

def readWord {α : Type} (meaning : String → Option α) (unknown : String → List Char → Fault)
    (text : List Char) : Except Fault (α × List Char) := do
  let (word, rest) ← readRun Char.isAlpha text
  match meaning (String.ofList word) with
  | some meant => .ok (meant, rest)
  | none => .error (unknown (String.ofList word) text)

theorem readWord_eq {α : Type} (meaning : String → Option α) (unknown : String → List Char → Fault)
    (text : List Char) : readWord meaning unknown text =
      match takeRun Char.isAlpha text with
      | none => .error (.unexpected text)
      | some word =>
        match meaning (String.ofList word.value) with
        | some meant => .ok (meant, word.rest)
        | none => .error (unknown (String.ofList word.value) text) := by
  rw [readWord, readRun]
  cases takeRun Char.isAlpha text <;> rfl

theorem reading_takeDigits_eq (text : List Char) : reading (takeDigits text) =
    match (takeRun Char.isDigit text).map Taken.pair with
    | some digits => .ok digits
    | none => .error ⟨.invalidNumber, text⟩ := by
  rw [takeDigits]
  cases takeRun Char.isDigit text <;> rfl

theorem readingOption_takeFraction_point (rest : List Char) :
    readingOption (takeFraction ('.' :: rest)) = (do
      let (digits, rest) ← reading (takeDigits rest)
      .ok (some digits, rest)) := by
  rw [takeFraction]
  cases takeDigits rest <;> rfl

theorem reading_takeExponentDigits_eq (negative : Bool) (text : List Char) :
    reading (takeExponentDigits negative text) = (do
      let (digits, rest) ← reading (takeDigits text)
      .ok (if negative then -(digitsValue digits : Int) else digitsValue digits, rest)) := by
  rw [takeExponentDigits]
  cases takeDigits text <;> rfl

def takeSignedDigits (text : List Char) : Except Fault (Int × List Char) :=
  match text with
  | '+' :: digits => reading (takeExponentDigits false digits)
  | '-' :: digits => reading (takeExponentDigits true digits)
  | digits => reading (takeExponentDigits false digits)

theorem readingOption_takeExponent_cons (mark : Char) (rest : List Char) :
    readingOption (takeExponent (mark :: rest)) =
      if mark = 'e' ∨ mark = 'E' then (do
        let (exponent, rest) ← takeSignedDigits rest
        .ok (some exponent, rest))
      else .ok (none, mark :: rest) := by
  unfold takeExponent
  by_cases marked : mark = 'e' ∨ mark = 'E'
  · simp only [if_pos marked]
    split
    next digits =>
      rw [takeSignedDigits]
      cases takeExponentDigits false digits <;> rfl
    next digits =>
      rw [takeSignedDigits]
      cases takeExponentDigits true digits <;> rfl
    next unsigned positive =>
      rw [takeSignedDigits]
      · cases takeExponentDigits false rest <;> rfl
      · exact unsigned
      · exact positive
  · simp only [if_neg marked]
    rfl

theorem takeSignedDigits_unsigned {text : List Char} (unsigned : text.head? ≠ some '+')
    (positive : text.head? ≠ some '-') :
    takeSignedDigits text = reading (takeExponentDigits false text) := by
  unfold takeSignedDigits
  split
  next => exact absurd rfl unsigned
  next => exact absurd rfl positive
  next => rfl

theorem reading_takeNumeral_minus (rest : List Char) :
    reading (takeNumeral ('-' :: rest)) = reading (takeUnsigned true rest) := by
  rw [takeNumeral]
  cases takeUnsigned true rest <;> rfl

theorem takeNumeral_positive {text : List Char} (positive : text.head? ≠ some '-') :
    takeNumeral text = takeUnsigned false text := by
  unfold takeNumeral
  split
  next => exact absurd rfl positive
  next => rfl

namespace Filter

theorem reading_takeBlank (text : List Char) :
    reading (takeBlank text) = readRun Text.isBlank text := by
  rw [takeBlank, readRun]
  cases takeRun Text.isBlank text <;> rfl

theorem reading_takeOperator (text : List Char) : reading (takeOperator text) =
    readWord CompareOp.ofWord? (fun word text => ⟨.unknownOperator word, text⟩) text := by
  rw [takeOperator, readWord_eq]
  cases takeRun Char.isAlpha text with
  | none => rfl
  | some word =>
    dsimp only
    cases CompareOp.ofWord? (String.ofList word.value) <;> rfl

theorem reading_takeWordValue (text : List Char) : reading (takeWordValue text) =
    readWord wordValue? (fun _ text => .unexpected text) text := by
  rw [takeWordValue, readWord_eq]
  cases takeRun Char.isAlpha text with
  | none => rfl
  | some word =>
    dsimp only
    cases wordValue? (String.ofList word.value) <;> rfl

theorem pair_takeNot? (text : List Char) : (takeNot? text).map Taken.pair =
    ((takeRun Char.isAlpha text).map Taken.pair).filter fun found =>
      decide (Caseless (String.ofList found.1) "not" ∧
        (startsParenthesis found.2 ∨ startsBlank found.2)) := by
  rw [takeNot?]
  cases takeRun Char.isAlpha text with
  | none => rfl
  | some word =>
    simp only [Option.map_some, Option.filter_some, Taken.pair, decide_eq_true_eq]
    split <;> rfl

theorem pair_takeLogical? (text : List Char) : (takeLogical? text).map Taken.pair =
    ((takeRun Char.isAlpha text).map Taken.pair).bind fun found =>
      (LogicalOp.ofWord? (String.ofList found.1)).map fun op => (op, found.2) := by
  rw [takeLogical?]
  cases takeRun Char.isAlpha text with
  | none => rfl
  | some word =>
    simp only [Option.map_some, Option.bind_some, Taken.pair]
    cases LogicalOp.ofWord? (String.ofList word.value) <;> rfl

theorem ne_nil_of_follows {text : List Char}
    (follows : startsParenthesis text = true ∨ startsBlank text = true) : text ≠ [] := by
  rintro rfl
  simp [startsParenthesis, startsBlank] at follows

theorem rest_of_takeNot? {text word rest : List Char}
    (found : (takeNot? text).map Taken.pair = some (word, rest)) :
    rest.length < text.length ∧ text.dropWhile Char.isAlpha = rest ∧ rest ≠ [] := by
  constructor
  · obtain ⟨taken, _, same⟩ := Option.map_eq_some_iff.mp found
    cases same
    exact taken.shorter
  · rw [pair_takeNot?] at found
    obtain ⟨run, follows⟩ := Option.filter_eq_some_iff.mp found
    exact ⟨dropWhile_of_takeRun run, ne_nil_of_follows (of_decide_eq_true follows).2⟩

theorem rest_of_takeLogical? {text rest : List Char} {op : LogicalOp}
    (found : (takeLogical? text).map Taken.pair = some (op, rest)) :
    rest.length < text.length ∧ text.dropWhile Char.isAlpha = rest := by
  constructor
  · obtain ⟨taken, _, same⟩ := Option.map_eq_some_iff.mp found
    cases same
    exact taken.shorter
  · rw [pair_takeLogical?] at found
    obtain ⟨⟨word, left⟩, run, meant⟩ := Option.bind_eq_some_iff.mp found
    obtain ⟨_, _, same⟩ := Option.map_eq_some_iff.mp meant
    cases same
    exact dropWhile_of_takeRun run

theorem startsParenthesis_of_unopened {text : List Char} (unopened : text.head? ≠ some '(') :
    startsParenthesis text = false := by
  unfold startsParenthesis
  split
  next => exact absurd rfl unopened
  next => rfl

theorem reading_takeNumber_eq (text : List Char) : reading (takeNumber text) = (do
    let (numeral, rest) ← reading (takeNumeral text)
    match numeral.toNumber? integers Numeral.nearest? with
    | some value => .ok (.number value, rest)
    | none => .error ⟨.invalidNumber, text⟩) := by
  rw [takeNumber]
  refine reading_bind _ _ _ fun numeral => ?_
  dsimp only [Taken.pair]
  cases numeral.value.toNumber? integers Numeral.nearest? <;> rfl

theorem reading_takeLiteral_quote (body : List Char) : reading (takeLiteral ('"' :: body)) = (do
    let (string, rest) ← reading (Text.takeStringBody ('"' :: body) body)
    .ok (.string (String.ofList string), rest)) := by
  rw [takeLiteral]
  cases Text.takeStringBody ('"' :: body) body <;> rfl

theorem takeLiteral_unquoted {c : Char} (unquoted : c ≠ '"') (rest : List Char) :
    takeLiteral (c :: rest) =
      if c = '-' ∨ c.isDigit then takeNumber (c :: rest) else takeWordValue (c :: rest) := by
  rw [takeLiteral]
  exact unquoted

theorem reading_takeAttribute (text : List Char) : reading (takeAttribute text) =
    match (takeRun isAttributeChar text).map Taken.pair with
    | none => .error (.unexpected text)
    | some (token, rest) => (do
      let names ← splitNames rest (splitUrn token).2
      .ok (⟨(splitUrn token).1.map String.ofList, names.map fun name => ⟨name, none⟩⟩, rest)) := by
  simp only [takeAttribute]
  cases takeRun isAttributeChar text with
  | none => rfl
  | some token =>
    simp only [Option.map_some, Taken.pair]
    cases splitNames token.rest (splitUrn token.value).2 <;> rfl

theorem reading_takeComparison (text : List Char) : reading (takeComparison text) = (do
    let (path, rest) ← reading (takeAttribute text)
    let (_, rest) ← reading (takeBlank rest)
    let (op, rest) ← reading (takeOperator rest)
    if op = .present then .ok (.compare path .present .null, rest)
    else
      let (_, rest) ← reading (takeBlank rest)
      let (value, rest) ← reading (takeLiteral rest)
      .ok (.compare path op value, rest)) := by
  simp only [takeComparison]
  refine reading_bind _ _ _ fun path => ?_
  refine reading_bind _ _ _ fun before => ?_
  refine reading_bind _ _ _ fun op => ?_
  dsimp only [Taken.pair]
  split
  · rfl
  · refine reading_bind _ _ _ fun blank => ?_
    exact reading_bind _ _ _ fun literal => rfl

theorem reading_takeOperand_opened {text inside : List Char}
    (opened : Text.skipBlank text = '(' :: inside) : reading (takeOperand text) = (do
      let (inner, rest) ← reading (takeExpression inside)
      match Text.skipBlank rest with
      | ')' :: rest => .ok (inner, rest)
      | found => .error (.unexpected found)) := by
  rw [takeOperand]
  split
  next other same =>
    cases opened.symm.trans same
    refine reading_bind _ _ _ fun inner => ?_
    dsimp only [Taken.pair]
    split
    next closed =>
      split
      next again =>
        cases closed.symm.trans again
        rfl
      next unclosed => exact absurd closed (unclosed _)
    next unclosed =>
      split
      next closed => exact absurd closed (unclosed _)
      next => rfl
  next unopened => exact absurd opened (unopened inside)

theorem reading_takeOperand {text : List Char}
    (unopened : startsParenthesis (Text.skipBlank text) = false) :
    reading (takeOperand text) =
      match (takeNot? (Text.skipBlank text)).map Taken.pair with
      | some (_, rest) => (do
        let (inner, rest) ← reading (takeOperand rest)
        .ok (.not inner, rest))
      | none => reading (takeComparison (Text.skipBlank text)) := by
  rw [takeOperand]
  split
  next opened => simp [opened, startsParenthesis] at unopened
  next =>
    split
    next word found =>
      rw [found]
      exact reading_bind _ _ _ fun inner => rfl
    next missing =>
      rw [missing]
      dsimp only [Option.map_none]
      cases takeComparison (Text.skipBlank text) <;> rfl

theorem reading_takeExpression (text : List Char) : reading (takeExpression text) = (do
    let (first, rest) ← reading (takeOperand text)
    let (more, rest) ← passing (takeMore rest)
    .ok (join first more, rest)) := by
  rw [takeExpression]
  refine reading_bind _ _ _ fun first => ?_
  dsimp only [Taken.pair]
  cases takeMore first.rest <;> rfl

theorem passing_takeMore (text : List Char) : passing (takeMore text) =
    match (takeLogical? (Text.skipBlank text)).map Taken.pair with
    | none => .ok ([], Text.skipBlank text)
    | some (op, rest) =>
      if startsParenthesis rest ∨ startsBlank rest then do
        let (operand, rest) ← reading (takeOperand rest)
        let (more, rest) ← passing (takeMore rest)
        .ok ((op, operand) :: more, rest)
      else .error (.unexpected rest) := by
  rw [takeMore]
  cases takeLogical? (Text.skipBlank text) with
  | none => rfl
  | some word =>
    dsimp only [Option.map_some, Taken.pair]
    split
    · cases takeOperand word.rest with
      | error fault => rfl
      | ok operand =>
        cases more : takeMore operand.rest with
        | error fault => simp [more, bind, Except.bind, passing, Except.map]
        | ok rest => simp [more, bind, Except.bind, passing, Except.map, Passed.pair]
    · rfl

end Filter

namespace Path

theorem takeSelection_unopened (filtered : Bool) {text : List Char}
    (unopened : text.head? ≠ some '[') : takeSelection filtered text = .ok none := by
  unfold takeSelection
  split
  next => simp at unopened
  next => rfl

theorem readingOption_takeSelection (inside : List Char) :
    readingOption (takeSelection false ('[' :: inside)) = (do
      let (filter, rest) ← reading (Filter.takeExpression inside)
      match Text.skipBlank rest with
      | ']' :: rest => .ok (some filter, rest)
      | found => .error (.unexpected found)) := by
  simp only [takeSelection, Bool.false_eq_true, if_false]
  cases Filter.takeExpression inside with
  | error fault => rfl
  | ok filter =>
    simp only [reading_ok, bind, Except.bind]
    split
    next closed =>
      split
      next again =>
        cases closed.symm.trans again
        rfl
      next unclosed => exact absurd closed (unclosed _)
    next unclosed =>
      split
      next closed => exact absurd closed (unclosed _)
      next => rfl

theorem takeSegments_eq (filtered : Bool) (text : List Char) : takeSegments filtered text =
    match (takeRun isNameChar text).map Taken.pair with
    | none => .error ⟨.emptySegment, text⟩
    | some (name, rest) => (do
      let (filter, rest) ← readingOption (takeSelection filtered rest)
      match rest with
      | [] => .ok [⟨String.ofList name, filter⟩]
      | '.' :: more => do
        let segments ← takeSegments (filtered || filter.isSome) more
        .ok (⟨String.ofList name, filter⟩ :: segments)
      | found => .error (.unexpected found)) := by
  rw [takeSegments]
  cases takeRun isNameChar text with
  | none => rfl
  | some name =>
    dsimp only [Option.map_some, Taken.pair]
    cases selected : takeSelection filtered name.rest with
    | error fault => rfl
    | ok selection =>
      simp only [bind, Except.bind, readingOption, Except.map, Option.isSome_map]
      split
      next ended => rw [ended]
      next more parted =>
        rw [parted]
        rfl
      next unended unparted =>
        split
        next ended => exact absurd ended unended
        next more parted => exact absurd parted (unparted more)
        next => rfl

/-- A text is accepted where segments follow what is cut off as the URN ahead of any filter. -/
theorem parse_eq_ok_iff {text : String} (given : text.isEmpty = false) {path : Path} :
    parse text = .ok path ↔
      (splitUrn (text.toList.takeWhile (· != '['))).1.map String.ofList = path.schema ∧
        takeSegments false ((splitUrn (text.toList.takeWhile (· != '['))).2 ++
          text.toList.dropWhile (· != '[')) = .ok path.segments := by
  obtain ⟨schema, segments⟩ := path
  rw [parse, given]
  simp only [Bool.false_eq_true, if_false]
  generalize takeSegments false _ = read
  cases read with
  | error fault => simp [Except.map, Except.mapError]
  | ok found => simp [Except.map, Except.mapError]

end Path
end Scim
