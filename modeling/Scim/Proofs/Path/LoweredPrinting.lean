import Scim.Proofs.Path.LoweredGrammar

/-! Printing does not add to the case of letters. Paths that differ in the case of names only are
printed to texts that differ in the case of letters outside string literals only, and so are read
again, or refused, together. -/
namespace Scim

theorem lowerOutside_append_of_balanced {first : List Char} (balanced : Balanced first)
    (rest : List Char) : lowerOutside (first ++ rest) = lowerOutside first ++ lowerOutside rest := by
  have both (first : List Char) :
      (QuoteMode.outside.scan? first = some .outside →
        lowerOutside (first ++ rest) = lowerOutside first ++ lowerOutside rest) ∧
      (QuoteMode.inside.scan? first = some .outside →
        lowerInside (first ++ rest) = lowerInside first ++ lowerOutside rest) := by
    induction h : first.length using Nat.strong_induction_on generalizing first with
    | _ length ih =>
    subst h
    cases first with
    | nil =>
      rw [lowerOutside_nil]
      exact ⟨fun _ => rfl, fun ended => by cases ended⟩
    | cons c more =>
      have shorter := ih more.length (Nat.lt_succ_self _) more rfl
      rw [QuoteMode.scan?_cons, QuoteMode.scan?_cons, QuoteMode.step?, QuoteMode.step?]
      by_cases quote : c = '"'
      · subst quote
        rw [if_pos rfl, if_pos rfl, List.cons_append, lowerOutside_quote, lowerOutside_quote,
          lowerInside_quote, lowerInside_quote]
        exact ⟨fun scanned => congrArg ('"' :: ·) (shorter.2 scanned),
          fun scanned => congrArg ('"' :: ·) (shorter.1 scanned)⟩
      · rw [if_neg quote, if_neg quote]
        constructor
        · intro scanned
          rw [List.cons_append, lowerOutside_cons quote, lowerOutside_cons quote]
          split at scanned
          · cases scanned
          · exact congrArg (c.toLower :: ·) (shorter.1 scanned)
        · intro scanned
          by_cases backslash : c = '\\'
          · subst backslash
            cases more with
            | nil => cases scanned
            | cons mark left =>
              have later := ih left.length (by simp only [List.length_cons]; omega) left rfl
              rw [List.cons_append, List.cons_append, lowerInside_escape, lowerInside_escape]
              exact congrArg ('\\' :: mark :: ·) (later.2 scanned)
          · rw [if_neg backslash] at scanned
            rw [List.cons_append, lowerInside_cons quote backslash,
              lowerInside_cons quote backslash]
            exact congrArg (c :: ·) (shorter.2 scanned)
  exact (both first).1 balanced

namespace Path

theorem moreSegmentsChars_lowered {segments : List Segment}
    (plain : ∀ segment ∈ segments, segment.filter = none) :
    moreSegmentsChars (segments.map Segment.lowered) =
      (moreSegmentsChars segments).map Char.toLower := by
  induction segments with
  | nil => rfl
  | cons segment rest ih =>
    obtain ⟨first, others⟩ := List.forall_mem_cons.mp plain
    obtain ⟨name, _⟩ := segment
    cases first
    simp only [List.map_cons, moreSegmentsChars, Segment.lowered, Segment.chars, toList_lowered,
      ih others, List.map_append]
    rfl

theorem chars_lowered {path : Path} (plain : ∀ segment ∈ path.segments, segment.filter = none) :
    path.lowered.chars = path.chars.map Char.toLower := by
  obtain ⟨schema, segments⟩ := path
  have spelled : segmentsChars (segments.map Segment.lowered) =
      (segmentsChars segments).map Char.toLower := by
    cases segments with
    | nil => rfl
    | cons segment rest =>
      obtain ⟨first, others⟩ := List.forall_mem_cons.mp plain
      obtain ⟨name, _⟩ := segment
      cases first
      simp only [List.map_cons, segmentsChars, Segment.lowered, Segment.chars, toList_lowered,
        moreSegmentsChars_lowered others, List.map_append]
  rw [lowered_eq]
  cases schema with
  | none => exact spelled
  | some urn =>
    simp only [Option.map_some, chars, toList_lowered, spelled, List.map_append, List.map_cons]
    rfl

end Path

namespace Filter

theorem isLogical_lowered (filter : Filter) : filter.lowered.isLogical = filter.isLogical := by
  cases filter <;> rfl

/-- Filters that differ in the case of names only are printed to texts that do. -/
theorem lowerOutside_chars_congr {filter other : Filter} (printable : filter.Printable)
    (otherPrintable : other.Printable) (same : filter.lowered = other.lowered) :
    lowerOutside filter.chars = lowerOutside other.chars := by
  induction filter generalizing other with
  | compare path op value =>
    cases other with
    | compare otherPath otherOp otherValue =>
      simp only [lowered, compare.injEq] at same
      obtain ⟨paths, rfl, rfl⟩ := same
      have token {path : Path} (attributed : path.IsAttribute) (rest : List Char) :
          lowerOutside (path.chars ++ rest) = path.lowered.chars ++ lowerOutside rest := by
        rw [Path.chars_lowered attributed.plain, lowerOutside_append]
        intro quote
        have := attributed.allowed _ quote
        simp [isAttributeChar, isNameChar] at this
      rw [chars, chars, List.append_assoc, List.append_assoc, token printable.1,
        token otherPrintable.1, paths]
    | logical | not => cases same
  | logical op left right left_ih right_ih =>
    cases other with
    | logical otherOp otherLeft otherRight =>
      simp only [lowered, logical.injEq] at same
      obtain ⟨rfl, lefts, rights⟩ := same
      obtain ⟨leftPrintable, rightPrintable⟩ : left.Printable ∧ right.Printable := printable
      obtain ⟨otherLeftPrintable, otherRightPrintable⟩ :
        otherLeft.Printable ∧ otherRight.Printable := otherPrintable
      have operand : lowerOutside (if right.isLogical then '(' :: right.chars ++ [')']
            else right.chars) =
          lowerOutside (if otherRight.isLogical then '(' :: otherRight.chars ++ [')']
            else otherRight.chars) := by
        rw [← isLogical_lowered right, rights, isLogical_lowered]
        split
        · rw [List.cons_append, List.cons_append, lowerOutside_cons (by decide),
            lowerOutside_cons (by decide),
            lowerOutside_append_of_balanced (balanced_chars rightPrintable),
            lowerOutside_append_of_balanced (balanced_chars otherRightPrintable),
            right_ih rightPrintable otherRightPrintable rights]
        · exact right_ih rightPrintable otherRightPrintable rights
      have word (rest : List Char) : lowerOutside (' ' :: op.word.toList ++ ' ' :: rest) =
          (' ' :: op.word.toList ++ [' ']).map Char.toLower ++ lowerOutside rest := by
        rw [← lowerOutside_append]
        · rw [List.append_assoc]
          rfl
        · cases op <;> decide
      rw [chars, chars, List.append_assoc, List.append_assoc,
        lowerOutside_append_of_balanced (balanced_chars leftPrintable),
        lowerOutside_append_of_balanced (balanced_chars otherLeftPrintable),
        left_ih leftPrintable otherLeftPrintable lefts, word, word, operand]
    | compare | not => cases same
  | not inner ih =>
    cases other with
    | not otherInner =>
      simp only [lowered, not.injEq] at same
      have innerPrintable : inner.Printable := printable
      have otherInnerPrintable : otherInner.Printable := otherPrintable
      have keyword (rest : List Char) : lowerOutside ("not (".toList ++ rest) =
          ("not (".toList).map Char.toLower ++ lowerOutside rest :=
        lowerOutside_append (by decide) rest
      rw [chars, chars, List.append_assoc, List.append_assoc, keyword, keyword,
        lowerOutside_append_of_balanced (balanced_chars innerPrintable),
        lowerOutside_append_of_balanced (balanced_chars otherInnerPrintable),
        ih innerPrintable otherInnerPrintable same]
    | compare | logical => cases same

end Filter

namespace Path

/-- Segments that differ within filters are printed to texts that differ in case, if what follows
them does. -/
theorem lowerOutside_segment_congr {segment other : Segment} (alike : segment.Alike other)
    (named : segment.IsNamed) (printable : ∀ filter ∈ segment.filter, filter.Printable)
    (otherPrintable : ∀ filter ∈ other.filter, filter.Printable) {rest last : List Char}
    (tails : lowerOutside rest = lowerOutside last) :
    lowerOutside (segment.chars ++ rest) = lowerOutside (other.chars ++ last) := by
  obtain ⟨name, filter⟩ := segment
  obtain ⟨otherName, otherFilter⟩ := other
  obtain ⟨rfl, filters⟩ := alike
  have noQuote : '"' ∉ name.toList := fun quote => by simpa [isNameChar] using named.allowed _ quote
  cases filters with
  | none => rw [Segment.chars, lowerOutside_append noQuote, lowerOutside_append noQuote, tails]
  | @some filter otherFilter same =>
    have filters := Filter.lowerOutside_chars_congr (printable filter rfl)
      (otherPrintable otherFilter rfl) same
    have bracketed {filter : Filter} (printable : filter.Printable) (rest : List Char) :
        lowerOutside (Segment.chars ⟨name, some filter⟩ ++ rest) = name.toList.map Char.toLower ++
          '[' :: (lowerOutside filter.chars ++ ']' :: lowerOutside rest) := by
      rw [Segment.chars, List.append_assoc, List.append_assoc, List.cons_append,
        lowerOutside_append noQuote, lowerOutside_cons (by decide),
        lowerOutside_append_of_balanced (Filter.balanced_chars printable), List.singleton_append,
        lowerOutside_cons (by decide)]
      rfl
    rw [bracketed (printable filter rfl), bracketed (otherPrintable otherFilter rfl), filters, tails]

variable {segments others : List Segment}

theorem lowerOutside_moreSegmentsChars_congr (alike : List.Forall₂ Segment.Alike segments others)
    (named : ∀ segment ∈ segments, segment.IsNamed)
    (printable : ∀ segment ∈ segments, ∀ filter ∈ segment.filter, filter.Printable)
    (otherPrintable : ∀ segment ∈ others, ∀ filter ∈ segment.filter, filter.Printable) :
    lowerOutside (moreSegmentsChars segments) = lowerOutside (moreSegmentsChars others) := by
  induction alike with
  | nil => rfl
  | cons first _ ih =>
    simp only [List.forall_mem_cons] at named printable otherPrintable
    rw [moreSegmentsChars, moreSegmentsChars, List.cons_append, List.cons_append,
      lowerOutside_cons (by decide), lowerOutside_cons (by decide),
      lowerOutside_segment_congr first named.1 printable.1 otherPrintable.1
        (ih named.2 printable.2 otherPrintable.2)]

theorem lowerOutside_segmentsChars_congr (alike : List.Forall₂ Segment.Alike segments others)
    (named : ∀ segment ∈ segments, segment.IsNamed)
    (printable : ∀ segment ∈ segments, ∀ filter ∈ segment.filter, filter.Printable)
    (otherPrintable : ∀ segment ∈ others, ∀ filter ∈ segment.filter, filter.Printable) :
    lowerOutside (segmentsChars segments) = lowerOutside (segmentsChars others) := by
  cases alike with
  | nil => rfl
  | cons first more =>
    simp only [List.forall_mem_cons] at named printable otherPrintable
    exact lowerOutside_segment_congr first named.1 printable.1 otherPrintable.1
      (lowerOutside_moreSegmentsChars_congr more named.2 printable.2 otherPrintable.2)

theorem loweredText_segmentsChars (named : ∀ segment ∈ segments, segment.IsNamed) :
    loweredText (segmentsChars segments) = lowerOutside (segmentsChars segments) := by
  have noQuote : '"' ∉ (segmentsChars segments).takeWhile (· != '[') := by
    intro member
    rcases ahead_of_bracket named '"' member with name | point
    · simp [isNameChar] at name
    · cases point
  rw [loweredText, ← lowerOutside_append noQuote, List.takeWhile_append_dropWhile]

theorem loweredText_append {ahead : List Char} (noBracket : '[' ∉ ahead) (rest : List Char) :
    loweredText (ahead ++ rest) = ahead.map Char.toLower ++ loweredText rest := by
  have all : ∀ c ∈ ahead, (c != '[') = true :=
    fun c member => bne_iff_ne.mpr fun same => noBracket (same ▸ member)
  rw [loweredText, List.takeWhile_append_of_pos all, List.dropWhile_append_of_pos all,
    List.map_append, List.append_assoc, ← loweredText]

variable {path other : Path}

theorem loweredText_chars_congr (alike : path.Alike other)
    (noBracket : ∀ urn ∈ path.schema, '[' ∉ urn.toList)
    (named : ∀ segment ∈ path.segments, segment.IsNamed)
    (otherNamed : ∀ segment ∈ other.segments, segment.IsNamed)
    (printable : ∀ segment ∈ path.segments, ∀ filter ∈ segment.filter, filter.Printable)
    (otherPrintable : ∀ segment ∈ other.segments, ∀ filter ∈ segment.filter, filter.Printable) :
    loweredText path.chars = loweredText other.chars := by
  obtain ⟨schema, segments⟩ := path
  obtain ⟨otherSchema, others⟩ := other
  obtain ⟨rfl, pairs⟩ := alike
  have same : loweredText (segmentsChars segments) = loweredText (segmentsChars others) := by
    rw [loweredText_segmentsChars named, loweredText_segmentsChars otherNamed,
      lowerOutside_segmentsChars_congr pairs named printable otherPrintable]
  cases schema with
  | none => exact same
  | some urn =>
    have absent : '[' ∉ urn.toList ++ [':'] := by simpa using noBracket urn rfl
    have qualified (segments : List Segment) : (Path.mk (some urn) segments).chars =
        (urn.toList ++ [':']) ++ segmentsChars segments := by simp [chars]
    rw [qualified, qualified, loweredText_append absent, loweredText_append absent, same]

/-- A bracket in the URN of a printed path that ends in a filter is refused. -/
theorem parse_render_of_bracket (named : ∀ segment ∈ path.segments, segment.IsNamed)
    (printable : ∀ segment ∈ path.segments, ∀ filter ∈ segment.filter, filter.Printable)
    (ends : EndsInFilter path.segments) {urn : String} (qualified : path.schema = some urn)
    (bracket : '[' ∈ urn.toList) : (parse path.render).toOption = none := by
  cases parsed : parse path.render with
  | error => rfl
  | ok read =>
    obtain ⟨schema, _⟩ := parse_render_names named printable ends parsed
    rw [qualified] at schema
    rcases wellFormed_of_parse parsed with rfl | ⟨spelled, _⟩
    · cases schema
    · exact absurd bracket (spelled.urn urn schema).2

/-- **Printing does not add to the case of letters.** Paths that differ within filters are printed
to texts that are both refused, or read as paths that differ in the case of names only. -/
theorem parse_render_alike (alike : path.Alike other) (ends : EndsInFilter path.segments)
    (otherEnds : EndsInFilter other.segments)
    (named : ∀ segment ∈ path.segments, segment.IsNamed)
    (otherNamed : ∀ segment ∈ other.segments, segment.IsNamed)
    (printable : ∀ segment ∈ path.segments, ∀ filter ∈ segment.filter, filter.Printable)
    (otherPrintable : ∀ segment ∈ other.segments, ∀ filter ∈ segment.filter, filter.Printable) :
    (parse path.render).toOption.map lowered = (parse other.render).toOption.map lowered := by
  by_cases bracketed : ∃ urn, path.schema = some urn ∧ '[' ∈ urn.toList
  · obtain ⟨urn, qualified, bracket⟩ := bracketed
    rw [parse_render_of_bracket named printable ends qualified bracket,
      parse_render_of_bracket otherNamed otherPrintable otherEnds
        (alike.schema.symm.trans qualified) bracket]
  · have same := loweredText_chars_congr alike
      (fun urn qualified bracket => bracketed ⟨urn, qualified, bracket⟩) named otherNamed printable
      otherPrintable
    rw [← parse_loweredText, ← parse_loweredText, render, render, String.toList_ofList,
      String.toList_ofList, same]

end Path
end Scim
