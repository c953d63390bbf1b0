import Scim.Proofs.Path.Attributes
import Scim.Proofs.Number.Numerals
import Scim.Proofs.Text.Literals

/-! Where faults point. A reader leaves an end of its text or reports a fault within it, and what
the report says is to be seen there: the character that was not due, the word without a meaning,
the quote that is never closed. -/
namespace Scim

/-- What a report says of the text from the fault to the end. -/
def SyntaxErrorKind.Describes : SyntaxErrorKind → List Char → Prop
  | .unexpectedChar found, rest => rest.head? = some found
  | .unexpectedEnd, rest => rest = []
  | .unknownOperator word, rest => word.toList = rest.takeWhile Char.isAlpha ∧ word ≠ ""
  | .unclosedString, rest => rest.head? = some '"'
  | .nestedFilter, rest => rest.head? = some '['
  | .emptySegment, rest => Stops isNameChar rest
  | .invalidEscape, _ | .invalidNumber, _ => True

structure Fault.PointsInto (fault : Fault) (text : List Char) : Prop where
  within : fault.rest <:+ text
  described : fault.kind.Describes fault.rest

theorem Fault.PointsInto.widen {fault : Fault} {text longer : List Char}
    (points : fault.PointsInto text) (within : text <:+ longer) : fault.PointsInto longer :=
  ⟨points.within.trans within, points.described⟩

theorem Fault.unexpected_pointsInto (text : List Char) : (unexpected text).PointsInto text := by
  cases text with
  | nil => exact ⟨List.suffix_refl _, rfl⟩
  | cons c rest => exact ⟨List.suffix_refl _, rfl⟩

def ReadsWithin {α : Type} (text : List Char) : Except Fault (α × List Char) → Prop
  | .ok (_, rest) => rest <:+ text
  | .error fault => fault.PointsInto text

namespace ReadsWithin

variable {α β : Type} {text longer : List Char}

theorem widen {result : Except Fault (α × List Char)} (reads : ReadsWithin text result)
    (within : text <:+ longer) : ReadsWithin longer result := by
  cases result with
  | error fault => exact Fault.PointsInto.widen reads within
  | ok found => exact List.IsSuffix.trans reads within

theorem behind {c : Char} {result : Except Fault (α × List Char)}
    (reads : ReadsWithin text result) : ReadsWithin (c :: text) result :=
  reads.widen (List.suffix_cons c text)

theorem unexpected (text : List Char) :
    ReadsWithin (α := α) text (.error (.unexpected text)) := Fault.unexpected_pointsInto text

theorem bind {one : Except Fault (α × List Char)}
    {next : α × List Char → Except Fault (β × List Char)} (reads : ReadsWithin text one)
    (onward : ∀ value rest, one = .ok (value, rest) → ReadsWithin rest (next (value, rest))) :
    ReadsWithin text (one >>= next) := by
  cases one with
  | error fault => exact reads
  | ok found => exact (onward found.1 found.2 rfl).widen reads

theorem map {one : Except Fault (α × List Char)} (reads : ReadsWithin text one) (f : α → β) :
    ReadsWithin text (do let (value, rest) ← one; .ok (f value, rest)) :=
  reads.bind fun _ _ _ => List.suffix_refl _

end ReadsWithin

theorem takeRun_cases (p : Char → Bool) (text : List Char) :
    takeRun p text = none ∧ Stops p text ∨
      ∃ run, takeRun p text = some run ∧ run.value = text.takeWhile p ∧ run.value ≠ [] ∧
        run.rest <:+ text := by
  unfold takeRun
  by_cases none : text.takeWhile p = []
  · have parts := List.takeWhile_append_dropWhile (p := p) (l := text)
    rw [none, List.nil_append] at parts
    exact .inl ⟨dif_pos none, parts ▸ stops_dropWhile p text⟩
  · exact .inr ⟨_, dif_neg none, rfl, none, List.dropWhile_suffix p⟩

theorem readRun_within (p : Char → Bool) (text : List Char) :
    ReadsWithin text (readRun p text) := by
  rw [readRun]
  rcases takeRun_cases p text with ⟨none, _⟩ | ⟨run, some, _, _, within⟩
  · rw [none]
    exact .unexpected text
  · rw [some]
    exact within

/-- Words are refused with a fault that may tell the longest run of letters. -/
theorem readWord_within {α : Type} (meaning : String → Option α)
    {unknown : String → List Char → Fault} {text : List Char}
    (refused : ∀ word : String, word.toList = text.takeWhile Char.isAlpha → word ≠ "" →
      (unknown word text).PointsInto text) : ReadsWithin text (readWord meaning unknown text) := by
  rw [readWord_eq]
  rcases takeRun_cases Char.isAlpha text with ⟨none, _⟩ | ⟨run, some, longest, nonempty, within⟩
  · rw [none]
    exact .unexpected text
  · rw [some]
    dsimp only
    cases meaning (String.ofList run.value) with
    | none => exact refused _ (by rw [String.toList_ofList, longest]) (by simpa using nonempty)
    | some meant => exact within

theorem skipBlank_suffix (text : List Char) : Text.skipBlank text <:+ text :=
  List.dropWhile_suffix _

theorem invalidNumber_pointsInto (text : List Char) :
    (Fault.mk .invalidNumber text).PointsInto text := ⟨List.suffix_refl _, trivial⟩

theorem takeDigits_within (text : List Char) : ReadsWithin text (reading (takeDigits text)) := by
  rw [reading_takeDigits_eq]
  rcases takeRun_cases Char.isDigit text with ⟨none, _⟩ | ⟨run, some, _, _, within⟩
  · rw [none]
    exact invalidNumber_pointsInto text
  · rw [some]
    exact within

theorem takeFraction_within (text : List Char) :
    ReadsWithin text (readingOption (takeFraction text)) := by
  by_cases point : text.head? = some '.'
  · obtain ⟨rest, rfl⟩ := List.head?_eq_some_iff.mp point
    rw [readingOption_takeFraction_point]
    exact ((takeDigits_within rest).map some).behind
  · rw [takeFraction_absent point]
    exact List.suffix_refl _

theorem takeExponentDigits_within (negative : Bool) (text : List Char) :
    ReadsWithin text (reading (takeExponentDigits negative text)) := by
  rw [reading_takeExponentDigits_eq]
  exact (takeDigits_within text).bind fun digits rest _ => List.suffix_refl _

theorem takeSignedDigits_within (text : List Char) : ReadsWithin text (takeSignedDigits text) := by
  unfold takeSignedDigits
  split
  next digits => exact (takeExponentDigits_within false digits).behind
  next digits => exact (takeExponentDigits_within true digits).behind
  next => exact takeExponentDigits_within false text

theorem takeExponent_within (text : List Char) :
    ReadsWithin text (readingOption (takeExponent text)) := by
  cases text with
  | nil => exact List.suffix_refl _
  | cons mark rest =>
    rw [readingOption_takeExponent_cons]
    split
    · exact ((takeSignedDigits_within rest).map some).behind
    · exact List.suffix_refl _

theorem takeUnsigned_within (negative : Bool) (text : List Char) :
    ReadsWithin text (reading (takeUnsigned negative text)) := by
  rw [reading_takeUnsigned]
  refine (takeDigits_within text).bind fun whole rest _ => ?_
  refine (takeFraction_within rest).bind fun fraction rest _ => ?_
  exact (takeExponent_within rest).bind fun exponent rest _ => List.suffix_refl _

theorem takeNumeral_within (text : List Char) : ReadsWithin text (reading (takeNumeral text)) := by
  by_cases minus : text.head? = some '-'
  · obtain ⟨rest, rfl⟩ := List.head?_eq_some_iff.mp minus
    rw [reading_takeNumeral_minus]
    exact (takeUnsigned_within true rest).behind
  · rw [takeNumeral_positive minus]
    exact takeUnsigned_within false text

namespace Text

theorem invalidEscape_pointsInto (text : List Char) :
    (Fault.mk .invalidEscape text).PointsInto text := ⟨List.suffix_refl _, trivial⟩

theorem takeHex4_within (text : List Char) : ReadsWithin text (reading (takeHex4 text)) := by
  unfold takeHex4
  split
  next a b c d rest =>
    split
    next => exact ⟨[a, b, c, d], rfl⟩
    next => exact invalidEscape_pointsInto _
  next => exact invalidEscape_pointsInto _

theorem takeUnicode_within (text : List Char) :
    ReadsWithin text (reading (takeUnicode text)) := by
  rw [reading_takeUnicode]
  refine (takeHex4_within text).bind fun high rest _ => ?_
  dsimp only
  split
  · split
    next second _ =>
      refine ReadsWithin.behind (ReadsWithin.behind ?_)
      refine (takeHex4_within second).bind fun low rest _ => ?_
      dsimp only
      split
      · exact List.suffix_refl _
      · exact invalidEscape_pointsInto _
    next => exact invalidEscape_pointsInto _
  · split
    · exact invalidEscape_pointsInto _
    · exact List.suffix_refl _

theorem takeEscape_within (text : List Char) : ReadsWithin text (reading (takeEscape text)) := by
  cases text with
  | nil => exact invalidEscape_pointsInto []
  | cons mark rest =>
    by_cases unicode : mark = 'u'
    · subst unicode
      rw [reading_takeEscape_unicode]
      exact (takeUnicode_within rest).behind
    · cases short : shortEscape? mark with
      | some meant =>
        rw [reading_takeEscape_short rest unicode short]
        exact List.suffix_cons mark rest
      | none =>
        rw [takeEscape_refused rest unicode short]
        exact invalidEscape_pointsInto _

/-- A literal that is not closed is reported at its opening quote. -/
theorem takeStringBody_within {opening text : List Char} (quoted : opening.head? = some '"')
    (within : text <:+ opening) : ReadsWithin opening (reading (takeStringBody opening text)) := by
  induction h : text.length using Nat.strong_induction_on generalizing text with
  | _ length ih =>
  subst h
  cases text with
  | nil =>
    rw [takeStringBody]
    exact ⟨List.suffix_refl _, quoted⟩
  | cons c rest =>
    have onward : rest <:+ opening := (List.suffix_cons c rest).trans within
    by_cases quote : c = '"'
    · subst quote
      rw [reading_takeStringBody_quote]
      exact onward
    · by_cases backslash : c = '\\'
      · subst backslash
        rw [reading_takeStringBody_escape]
        have escape := takeEscape_within rest
        cases read : reading (takeEscape rest) with
        | error fault =>
          rw [read] at escape
          exact Fault.PointsInto.widen escape onward
        | ok found =>
          rw [read] at escape
          have shorter := length_of_reading read
          exact (ih found.2.length (by rw [List.length_cons]; omega)
            (List.IsSuffix.trans escape onward) rfl).map (found.1 :: ·)
      · rw [reading_takeStringBody_plain opening rest quote backslash]
        exact (ih rest.length (Nat.lt_succ_self _) onward rfl).map (c :: ·)

end Text

/-- What is left behind a URN, with the text that follows. -/
theorem splitUrn_suffix (token after : List Char) :
    (splitUrn token).2 ++ after <:+ token ++ after := by
  rcases splitUrn_cases token with whole | ⟨urn, dotted, cut, parts, _⟩
  · exact whole ▸ List.suffix_refl _
  · rw [cut, parts]
    exact ⟨urn ++ [':'], by simp⟩

namespace Filter

theorem emptySegment_pointsInto {text : List Char}
    (ends : ∀ c ∈ text.head?, c = '.' ∨ isAttributeChar c = false) :
    (Fault.mk .emptySegment text).PointsInto text := by
  refine ⟨List.suffix_refl _, fun c first => ?_⟩
  rcases ends c first with rfl | stopped
  · decide
  · exact Bool.eq_false_iff.mpr fun name => by
      simp [isAttributeChar_of_isNameChar name] at stopped

theorem splitNames_fault {after : List Char} (stops : Stops isAttributeChar after)
    {dotted : List Char} {fault : Fault} (refused : splitNames after dotted = .error fault) :
    fault.PointsInto (dotted ++ after) := by
  induction h : dotted.length using Nat.strong_induction_on generalizing dotted with
  | _ length ih =>
  subst h
  rcases parts_at_point dotted with noPoint | ⟨name, more, rfl, noPoint⟩
  · by_cases empty : dotted = []
    · subst empty
      rw [splitNames] at refused
      cases refused
      exact emptySegment_pointsInto fun c first => .inr (stops c first)
    · rw [splitNames_last after empty noPoint] at refused
      cases refused
  · by_cases empty : name = []
    · subst empty
      rw [splitNames] at refused
      cases refused
      exact emptySegment_pointsInto fun c first => .inl (by simpa using first.symm)
    · rw [splitNames_cons after empty noPoint] at refused
      cases read : splitNames after more with
      | ok names =>
        rw [read] at refused
        cases refused
      | error other =>
        rw [read] at refused
        cases refused
        exact (ih more.length (by simp; omega) read rfl).widen ⟨name ++ ['.'], by simp⟩

theorem takeAttribute_within (text : List Char) :
    ReadsWithin text (reading (takeAttribute text)) := by
  rw [reading_takeAttribute]
  cases found : takeRun isAttributeChar text with
  | none => exact .unexpected text
  | some token =>
    obtain ⟨parts, _, _, stops⟩ := takeRun_eq_some found
    dsimp only [Option.map_some, Taken.pair]
    cases split : splitNames token.rest (splitUrn token.value).2 with
    | ok names => exact ⟨token.value, parts.symm⟩
    | error fault =>
      have within := splitUrn_suffix token.value token.rest
      rw [← parts] at within
      exact (splitNames_fault stops split).widen within

theorem takeBlank_within (text : List Char) : ReadsWithin text (reading (takeBlank text)) := by
  rw [reading_takeBlank]
  exact readRun_within _ text

theorem takeOperator_within (text : List Char) :
    ReadsWithin text (reading (takeOperator text)) := by
  rw [reading_takeOperator]
  exact readWord_within _ fun word longest nonempty => ⟨List.suffix_refl _, longest, nonempty⟩

theorem takeNumber_within (text : List Char) : ReadsWithin text (reading (takeNumber text)) := by
  rw [reading_takeNumber_eq]
  have numeral := takeNumeral_within text
  cases read : reading (takeNumeral text) with
  | error fault =>
    rw [read] at numeral
    exact numeral
  | ok found =>
    rw [read] at numeral
    dsimp only [bind, Except.bind]
    split
    · exact numeral
    · exact invalidNumber_pointsInto text

theorem takeLiteral_within (text : List Char) : ReadsWithin text (reading (takeLiteral text)) := by
  cases text with
  | nil => exact .unexpected []
  | cons c rest =>
    by_cases quote : c = '"'
    · subst quote
      rw [reading_takeLiteral_quote]
      have body := Text.takeStringBody_within rfl (List.suffix_cons '"' rest)
      exact body.bind fun string last _ => List.suffix_refl _
    · rw [takeLiteral_unquoted quote]
      split
      · exact takeNumber_within _
      · rw [reading_takeWordValue]
        exact readWord_within _ fun _ _ _ => Fault.unexpected_pointsInto _

theorem takeComparison_within (text : List Char) :
    ReadsWithin text (reading (takeComparison text)) := by
  rw [reading_takeComparison]
  refine (takeAttribute_within text).bind fun path rest _ => ?_
  refine (takeBlank_within rest).bind fun _ rest _ => ?_
  refine (takeOperator_within rest).bind fun op rest _ => ?_
  dsimp only
  split
  · exact List.suffix_refl _
  · refine (takeBlank_within rest).bind fun _ rest _ => ?_
    exact (takeLiteral_within rest).bind fun value rest _ => List.suffix_refl _

/-- What the three readers of filters do with texts up to a length. -/
structure ReadsWithinUpTo (length : Nat) : Prop where
  operand : ∀ {text}, text.length ≤ length → ReadsWithin text (reading (takeOperand text))
  expression : ∀ {text}, text.length ≤ length → ReadsWithin text (reading (takeExpression text))
  more : ∀ {text}, text.length ≤ length → ReadsWithin text (passing (takeMore text))

section

variable {length : Nat} (shorter : ∀ less < length, ReadsWithinUpTo less)

include shorter

theorem takeOperand_within {text : List Char} (bounded : text.length ≤ length) :
    ReadsWithin text (reading (takeOperand text)) := by
  have unblank := length_skipBlank_le text
  refine ReadsWithin.widen ?_ (skipBlank_suffix text)
  by_cases opened : (Text.skipBlank text).head? = some '('
  · obtain ⟨inside, opened⟩ := List.head?_eq_some_iff.mp opened
    rw [reading_takeOperand_opened opened, opened]
    rw [opened, List.length_cons] at unblank
    have inner := (shorter inside.length (by omega)).expression (Nat.le_refl _)
    refine (inner.bind fun filter rest _ => ?_).behind
    refine ReadsWithin.widen ?_ (skipBlank_suffix rest)
    dsimp only
    split
    next last closed =>
      rw [closed]
      exact List.suffix_cons _ last
    next => exact .unexpected _
  · rw [reading_takeOperand (startsParenthesis_of_unopened opened)]
    cases keyword : takeNot? (Text.skipBlank text) with
    | none => exact takeComparison_within _
    | some word =>
      have less := word.shorter
      have inner := (shorter word.rest.length (by omega)).operand (Nat.le_refl _)
      obtain ⟨_, left, _⟩ := rest_of_takeNot? (congrArg (Option.map Taken.pair) keyword)
      exact (inner.map Filter.not).widen (left ▸ List.dropWhile_suffix _)

theorem takeMore_within {text : List Char} (bounded : text.length ≤ length) :
    ReadsWithin text (passing (takeMore text)) := by
  have unblank := length_skipBlank_le text
  refine ReadsWithin.widen ?_ (skipBlank_suffix text)
  rw [passing_takeMore]
  cases keyword : takeLogical? (Text.skipBlank text) with
  | none => exact List.suffix_refl _
  | some word =>
    have less := word.shorter
    obtain ⟨_, left⟩ := rest_of_takeLogical? (congrArg (Option.map Taken.pair) keyword)
    refine ReadsWithin.widen ?_ (left ▸ List.dropWhile_suffix _)
    dsimp only [Option.map_some, Taken.pair]
    split
    · have operand := (shorter word.rest.length (by omega)).operand (Nat.le_refl _)
      refine operand.bind fun filter rest read => ?_
      have left := length_of_reading read
      have more := (shorter rest.length (by omega)).more (Nat.le_refl _)
      exact more.bind fun others last _ => List.suffix_refl _
    · exact .unexpected _

end

theorem readsWithinUpTo (length : Nat) : ReadsWithinUpTo length := by
  induction length using Nat.strong_induction_on with
  | _ length shorter =>
  refine ⟨takeOperand_within shorter, fun {text} bounded => ?_, takeMore_within shorter⟩
  rw [reading_takeExpression]
  refine (takeOperand_within shorter bounded).bind fun first rest read => ?_
  have left := length_of_reading read
  have more := (shorter rest.length (by omega)).more (Nat.le_refl _)
  exact more.bind fun others last _ => List.suffix_refl _

theorem takeExpression_within (text : List Char) :
    ReadsWithin text (reading (takeExpression text)) :=
  (readsWithinUpTo text.length).expression (Nat.le_refl _)

end Filter

namespace Path

theorem takeSelection_within (filtered : Bool) (text : List Char) :
    ReadsWithin text (readingOption (takeSelection filtered text)) := by
  by_cases opened : text.head? = some '['
  · obtain ⟨inside, rfl⟩ := List.head?_eq_some_iff.mp opened
    cases filtered with
    | true => exact ⟨List.suffix_refl _, rfl⟩
    | false =>
      rw [readingOption_takeSelection]
      refine ((Filter.takeExpression_within inside).bind fun filter rest _ => ?_).behind
      refine ReadsWithin.widen ?_ (skipBlank_suffix rest)
      dsimp only
      split
      next last closed =>
        rw [closed]
        exact List.suffix_cons _ last
      next => exact .unexpected _
  · rw [takeSelection_unopened filtered opened]
    exact List.suffix_refl _

theorem takeSegments_fault {filtered : Bool} {text : List Char} {fault : Fault}
    (refused : takeSegments filtered text = .error fault) : fault.PointsInto text := by
  induction h : text.length using Nat.strong_induction_on generalizing filtered text with
  | _ length ih =>
  subst h
  rw [takeSegments_eq] at refused
  rcases takeRun_cases isNameChar text with ⟨none, stops⟩ | ⟨name, found, _, _, within⟩
  · rw [none] at refused
    cases refused
    exact ⟨List.suffix_refl _, stops⟩
  · have selection := takeSelection_within filtered name.rest
    have less := name.shorter
    rw [found] at refused
    dsimp only [Option.map_some, Taken.pair] at refused
    cases selected : readingOption (takeSelection filtered name.rest) with
    | error other =>
      rw [selected] at refused selection
      cases refused
      exact Fault.PointsInto.widen selection within
    | ok chosen =>
      have shorter := length_of_readingOption selected
      rw [selected] at refused selection
      obtain ⟨filter, rest⟩ := chosen
      have left : rest <:+ text := List.IsSuffix.trans selection within
      dsimp only [bind, Except.bind] at refused shorter
      split at refused
      next => cases refused
      next more =>
        cases read : takeSegments (filtered || filter.isSome) more with
        | ok segments =>
          rw [read] at refused
          cases refused
        | error other =>
          rw [read] at refused
          cases refused
          rw [List.length_cons] at shorter
          exact (ih more.length (by omega) read rfl).widen ((List.suffix_cons _ more).trans left)
      next =>
        cases refused
        exact (Fault.unexpected_pointsInto _).widen left

end Path

theorem utf8Size_append (first rest : List Char) :
    utf8Size (first ++ rest) = utf8Size first + utf8Size rest := by
  induction first with
  | nil => simp [utf8Size]
  | cons c first ih => rw [List.cons_append, utf8Size, utf8Size, ih, Nat.add_assoc]

theorem utf8ByteSize_ofList (chars : List Char) :
    (String.ofList chars).utf8ByteSize = utf8Size chars := by
  induction chars with
  | nil => rfl
  | cons c rest ih =>
    rw [String.ofList_cons, String.utf8ByteSize_append, String.utf8ByteSize_singleton, ih, utf8Size]

/-- The error is about the text and points between two of its characters or to an end of it, where
the text goes on as the error says. -/
structure SyntaxError.PointsInto (error : SyntaxError) (text : String) : Prop where
  input : error.input = text
  bounded : error.offset ≤ text.utf8ByteSize
  ended : error.kind = .unexpectedEnd → error.offset = text.utf8ByteSize
  described : ∃ before rest : String, text = before ++ rest ∧
    error.offset = before.utf8ByteSize ∧ error.kind.Describes rest.toList

/-- The offset is the size of what stands before the fault. -/
theorem Fault.PointsInto.toError {fault : Fault} {text : String}
    (points : fault.PointsInto text.toList) : (fault.toError text).PointsInto text := by
  obtain ⟨before, parts⟩ := points.within
  have whole : text = String.ofList before ++ String.ofList fault.rest := by
    rw [← String.ofList_append, parts, String.ofList_toList]
  have offset : (fault.toError text).offset = (String.ofList before).utf8ByteSize := by
    rw [utf8ByteSize_ofList]
    simp only [Fault.toError, ← parts, utf8Size_append]
    omega
  have size : text.utf8ByteSize =
      (String.ofList before).utf8ByteSize + (String.ofList fault.rest).utf8ByteSize := by
    rw [← String.utf8ByteSize_append, ← whole]
  refine ⟨rfl, by omega, fun ended => ?_, _, _, whole, offset, ?_⟩
  · have described := points.described
    have none : fault.rest = [] := by rwa [show fault.kind = .unexpectedEnd from ended] at described
    have empty : (String.ofList fault.rest).utf8ByteSize = 0 := by rw [none]; rfl
    omega
  · rw [String.toList_ofList]
    exact points.described

theorem Filter.parse_error_pointsInto {text : String} {error : SyntaxError}
    (refused : parse text = .error error) : error.PointsInto text := by
  have reads := takeExpression_within text.toList
  rw [parse] at refused
  cases taken : takeExpression text.toList with
  | error fault =>
    rw [taken] at refused reads
    cases refused
    exact Fault.PointsInto.toError reads
  | ok found =>
    rw [taken] at refused reads
    dsimp only [bind, Except.bind] at refused
    split at refused
    next => cases refused
    next =>
      cases refused
      have within := (skipBlank_suffix found.rest).trans reads
      exact ((Fault.unexpected_pointsInto _).widen within).toError

theorem Path.parse_error_pointsInto {text : String} {error : SyntaxError}
    (refused : parse text = .error error) : error.PointsInto text := by
  rw [parse] at refused
  split at refused
  next => cases refused
  next =>
    have within := splitUrn_suffix (text.toList.takeWhile (· != '['))
      (text.toList.dropWhile (· != '['))
    rw [List.takeWhile_append_dropWhile] at within
    dsimp only at refused
    cases taken : takeSegments false ((splitUrn (text.toList.takeWhile (· != '['))).2 ++
        text.toList.dropWhile (· != '[')) with
    | ok segments =>
      rw [taken] at refused
      cases refused
    | error fault =>
      rw [taken] at refused
      cases refused
      exact ((takeSegments_fault taken).widen within).toError

/-- **Every text is accepted or refused with an error about what stands where it points**, as a path
and as a filter. -/
theorem parse_ok_or_pointsInto (text : String) :
    ((∃ path, Path.parse text = .ok path) ∨
      ∃ error, Path.parse text = .error error ∧ error.PointsInto text) ∧
    ((∃ filter, Filter.parse text = .ok filter) ∨
      ∃ error, Filter.parse text = .error error ∧ error.PointsInto text) := by
  constructor
  · cases result : Path.parse text with
    | ok path => exact .inl ⟨path, rfl⟩
    | error error => exact .inr ⟨error, rfl, Path.parse_error_pointsInto result⟩
  · cases result : Filter.parse text with
    | ok filter => exact .inl ⟨filter, rfl⟩
    | error error => exact .inr ⟨error, rfl, Filter.parse_error_pointsInto result⟩

/-- Characters before the fault count with all their bytes. -/
example : Filter.parse "a eq \"é\" xor" = .error ⟨.unexpectedChar 'x', "a eq \"é\" xor", 10⟩ := by
  decide +kernel

end Scim
