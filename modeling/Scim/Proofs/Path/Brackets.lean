import Scim.Proofs.Path.Soundness

/-! The text of a path whose filters are printable. Even where it was not printed from a tree that
can be parsed, for the schema it names may be any text, what is accepted has its names. -/
namespace Scim

theorem Number.balanced_chars (number : Number) : Balanced number.chars := by
  have read := Numeral.reading_takeNumeral number.numeral_wellFormed (stops_nil _)
  obtain ⟨consumed, parts, balanced⟩ := passes_takeNumeral read
  rw [List.append_nil, List.append_nil, number.numeral_chars] at parts
  exact parts ▸ balanced

theorem Json.balanced_chars {value : Json} (atom : value.IsAtom) : Balanced value.chars := by
  cases value with
  | null => rfl
  | bool truth => cases truth <;> rfl
  | number number => exact number.balanced_chars
  | string text =>
    obtain ⟨consumed, parts, closed⟩ :=
      Text.scan?_takeStringBody _ _ (Text.reading_takeStringBody [] text.toList [])
    rw [List.append_nil] at parts
    have text : (Json.string text).chars = '"' :: consumed := by
      rw [← parts]
      rfl
    rw [text, Balanced, QuoteMode.scan?_cons]
    exact closed
  | array | object => exact atom.elim

theorem Filter.balanced_chars {filter : Filter} (printable : filter.Printable) :
    Balanced filter.chars := by
  have space {rest : List Char} (balanced : Balanced rest) : Balanced (' ' :: rest) :=
    balanced.cons (by decide)
  have word {letters : List Char} (alpha : ∀ c ∈ letters, c.isAlpha = true) : Balanced letters :=
    .of_class alpha (by decide) (by decide) (by decide) (by decide)
  have parenthesised {inside : List Char} (balanced : Balanced inside) :
      Balanced ('(' :: inside ++ [')']) :=
    have closed : Balanced [')'] := rfl
    (balanced.cons (by decide)).append closed
  induction filter with
  | compare path op value =>
    obtain ⟨attributed, atom⟩ := printable
    have token : Balanced path.chars :=
      .of_class attributed.allowed (by decide) (by decide) (by decide) (by decide)
    rw [chars]
    refine (token.append (space (word op.isAlpha_word))).append ?_
    split
    · exact .nil
    · exact space (Json.balanced_chars atom)
  | logical op left right left_ih right_ih =>
    rw [chars]
    refine ((left_ih printable.1).append (space (word op.isAlpha_word))).append (space ?_)
    split
    · exact parenthesised (right_ih printable.2)
    · exact right_ih printable.2
  | not inner ih =>
    rw [chars]
    have opened : Balanced "not (".toList := rfl
    have closed : Balanced [')'] := rfl
    exact (opened.append (ih printable)).append closed

theorem not_balanced_closing {before : List Char} (balanced : Balanced before)
    (after : List Char) : ¬ Balanced (before ++ ']' :: after) := by
  rw [Balanced, QuoteMode.scan?_append, balanced]
  intro same
  cases same

/-- The bracket that closes a balanced text is the same, however the rest is divided. -/
theorem eq_of_closing {before after first rest : List Char} (balanced : Balanced before)
    (other : Balanced first) (same : before ++ ']' :: after = first ++ ']' :: rest) :
    before = first ∧ after = rest := by
  rcases List.append_eq_append_iff.mp same with ⟨middle, parts, shared⟩ | ⟨middle, parts, shared⟩
  · cases middle with
    | nil => simp_all
    | cons c more =>
      cases (List.cons.inj shared).1
      exact absurd (parts ▸ other) (not_balanced_closing balanced more)
  · cases middle with
    | nil => simp_all
    | cons c more =>
      cases (List.cons.inj shared).1
      exact absurd (parts ▸ balanced) (not_balanced_closing other more)

/-- A balanced text behind an opening bracket does not end a balanced text. -/
theorem not_balanced_opening {inside : List Char} (balanced : Balanced inside)
    (before : List Char) : ¬ Balanced (before ++ '[' :: inside) := by
  intro whole
  rw [Balanced, QuoteMode.scan?_append] at whole
  cases mode : QuoteMode.outside.scan? before with
  | none => simp [mode] at whole
  | some reached =>
    rw [mode, Option.bind_some, QuoteMode.scan?_cons] at whole
    have within : QuoteMode.inside.scan? inside = some .outside := by
      cases reached with
      | outside => cases whole
      | inside => exact whole
      | escaped => exact whole
    exact (QuoteMode.scan?_opposite inside).1 ⟨balanced, within⟩

namespace Path

theorem stops_of_bracket {p : Char → Bool} (bracket : p '[' = false) (rest : List Char) :
    Stops p ('[' :: rest) := (stops_cons p '[' rest).mpr bracket

/-- A run of name characters in front of something else is the first name that is read. -/
theorem name_unique {name other tail rest : List Char} (all : ∀ c ∈ name, isNameChar c = true)
    (stops : Stops isNameChar tail) (others : ∀ c ∈ other, isNameChar c = true)
    (ends : Stops isNameChar rest) (same : name ++ tail = other ++ rest) :
    name = other ∧ tail = rest := by
  have taken := takeWhile_append_of_stops all stops
  rw [same, takeWhile_append_of_stops others ends] at taken
  subst taken
  exact ⟨rfl, List.append_cancel_left same⟩

/-- What is accepted of printed segments has their names. -/
theorem names_of_takeSegments {segments read : List Segment} {filtered : Bool}
    (named : ∀ segment ∈ segments, segment.IsNamed)
    (printable : ∀ segment ∈ segments, ∀ filter ∈ segment.filter, filter.Printable)
    (accepted : takeSegments filtered (segmentsChars segments) = .ok read) :
    read.map (·.name) = segments.map (·.name) := by
  induction segments generalizing filtered read with
  | nil =>
    obtain ⟨name, _, tail, _, _, parts, nonempty, _⟩ := takeSegments_parts accepted
    simp_all [segmentsChars]
  | cons segment more ih =>
    simp only [List.forall_mem_cons] at named printable
    obtain ⟨stops, unopened⟩ := stops_moreSegmentsChars more
    obtain ⟨name, filter, tail, rest, others, parts, _, all, tailStops, selected, rfl, next⟩ :=
      takeSegments_parts accepted
    have left : name = segment.name.toList ∧ rest = moreSegmentsChars more := by
      cases segment with
      | mk spelling given =>
        cases given with
        | none =>
          obtain ⟨rfl, rfl⟩ := name_unique all tailStops named.1.allowed stops parts.symm
          rw [takeSelection_unopened filtered unopened] at selected
          cases selected
          exact ⟨rfl, rfl⟩
        | some given =>
          have text : segmentsChars (⟨spelling, some given⟩ :: more) = spelling.toList ++
              '[' :: (given.chars ++ ']' :: moreSegmentsChars more) := by
            simp [segmentsChars, Segment.chars]
          rw [text] at parts
          obtain ⟨rfl, rfl⟩ := name_unique all tailStops named.1.allowed
            (stops_of_bracket (by decide) _) parts.symm
          refine ⟨rfl, ?_⟩
          rcases takeSelection_sound selected with ⟨_, _, other⟩ | ⟨_, _, inside, _, same, _, passed⟩
          · simp at other
          · obtain ⟨consumed, closed, balanced⟩ := passed
            cases same
            exact (eq_of_closing (Filter.balanced_chars (printable.1 given rfl)) balanced
              closed).2.symm
    obtain ⟨rfl, rfl⟩ := left
    rw [List.map_cons, List.map_cons, String.ofList_toList]
    congr 1
    rcases moreSegmentsChars_cases more with ⟨ended, rfl⟩ | ⟨_, _, rfl, parted⟩
    · rcases next with ⟨_, rfl⟩ | ⟨after, same, _⟩
      · rfl
      · simp [ended] at same
    · rcases next with ⟨same, _⟩ | ⟨after, same, _, moreRead⟩
      · simp [parted] at same
      · rw [parted] at same
        cases same
        exact ih named.2 printable.2 moreRead

/-- An accepted text has names and points, and after them a bracket at most. -/
theorem ahead_of_takeSegments {filtered : Bool} {text : List Char} {segments : List Segment}
    (accepted : takeSegments filtered text = .ok segments) :
    ∃ ahead tail, text = ahead ++ tail ∧ (∀ c ∈ ahead, isNameChar c = true ∨ c = '.') ∧
      (tail = [] ∨ filtered = false ∧ ∃ inside, tail = '[' :: inside) := by
  induction h : text.length using Nat.strong_induction_on generalizing filtered text segments with
  | _ length ih =>
  subst h
  obtain ⟨name, filter, tail, rest, more, rfl, _, all, _, selected, rfl, next⟩ :=
    takeSegments_parts accepted
  rcases takeSelection_sound selected with ⟨rfl, rfl, _⟩ | ⟨unfiltered, _, inside, _, rfl, _⟩
  · rcases next with ⟨rfl, _⟩ | ⟨after, rfl, less, moreRead⟩
    · exact ⟨name, [], rfl, fun c member => .inl (all c member), .inl rfl⟩
    · obtain ⟨ahead, tail, rfl, allowed, ended⟩ := ih after.length less moreRead rfl
      refine ⟨name ++ '.' :: ahead, tail, by simp, fun c member => ?_, by simpa using ended⟩
      rcases List.mem_append.mp member with left | right
      · exact .inl (all c left)
      · rcases List.mem_cons.mp right with point | later
        · exact .inr point
        · exact allowed c later
  · exact ⟨name, '[' :: inside, rfl, fun c member => .inl (all c member),
      .inr ⟨unfiltered, inside, rfl⟩⟩

theorem not_bracket {c : Char} (allowed : isNameChar c = true ∨ c = '.') : c ≠ '[' ∧ c ≠ ']' := by
  rcases allowed with name | rfl
  · constructor <;>
      (rintro rfl; simp [isNameChar] at name)
  · decide

/-- Ahead of any bracket an accepted text has names and points. -/
theorem allowed_ahead {filtered : Bool} {text : List Char} {segments : List Segment}
    (accepted : takeSegments filtered text = .ok segments) :
    ∀ c ∈ text.takeWhile (· != '['), isNameChar c = true ∨ c = '.' := by
  obtain ⟨ahead, tail, rfl, allowed, ended⟩ := ahead_of_takeSegments accepted
  have stops : Stops (· != '[') tail := by
    rcases ended with rfl | ⟨_, inside, rfl⟩ <;> simp
  rwa [takeWhile_append_of_stops
    (fun c member => bne_iff_ne.mpr (not_bracket (allowed c member)).1) stops]

/-- Where an accepted text ends in a filter, no bracket stands ahead of it. -/
theorem noBracket_of_takeSegments {before inside text : List Char} {segments : List Segment}
    (balanced : Balanced inside) (parts : text = before ++ '[' :: (inside ++ [']']))
    (accepted : takeSegments false text = .ok segments) : '[' ∉ before := by
  induction h : text.length using Nat.strong_induction_on
    generalizing text before segments with
  | _ length ih =>
  subst h
  obtain ⟨name, filter, tail, rest, more, whole, _, all, _, selected, rfl, next⟩ :=
    takeSegments_parts accepted
  have noBracket : '[' ∉ name := fun member => (not_bracket (.inl (all _ member))).1 rfl
  rw [parts] at whole
  rcases takeSelection_sound selected with ⟨rfl, rfl, _⟩ | ⟨_, _, inner, rfl, rfl, _, passed⟩
  · rcases next with ⟨rfl, _⟩ | ⟨after, rfl, less, moreRead⟩
    · rw [List.append_nil] at whole
      exact absurd (whole ▸ by simp : '[' ∈ name) noBracket
    · have shifted : before ++ '[' :: (inside ++ [']']) = (name ++ ['.']) ++ after := by
        simpa using whole
      have noOther : '[' ∉ name ++ ['.'] := by simpa using noBracket
      rcases List.append_eq_append_iff.mp shifted with ⟨middle, same, shared⟩ |
        ⟨middle, same, shared⟩
      · cases middle with
        | nil =>
          rw [List.append_nil] at same
          rw [← same]
          exact noOther
        | cons c later =>
          cases (List.cons.inj shared).1
          exact absurd (same ▸ by simp : '[' ∈ name ++ ['.']) noOther
      · have later := ih after.length less shared moreRead rfl
        rw [same]
        simpa using ⟨noBracket, later⟩
  · obtain ⟨consumed, closed, passedBalanced⟩ := passed
    rcases next with ⟨rfl, _⟩ | ⟨after, rfl, _, moreRead⟩
    · have same : before ++ '[' :: inside = name ++ '[' :: consumed := by
        rw [closed] at whole
        have ended : (before ++ '[' :: inside) ++ [']'] = (name ++ '[' :: consumed) ++ [']'] := by
          simpa using whole
        exact List.append_cancel_right ended
      intro member
      rcases List.append_eq_append_iff.mp same with ⟨middle, parts, _⟩ | ⟨middle, parts, shared⟩
      · exact noBracket (parts ▸ List.mem_append_left _ member)
      · cases middle with
        | nil =>
          rw [parts, List.append_nil] at member
          exact noBracket member
        | cons c later =>
          rw [(List.cons.inj shared).2] at passedBalanced
          exact not_balanced_opening balanced later passedBalanced
    · -- what follows a filter has no bracket, so the text cannot end in one
      obtain ⟨ahead, tail, same, allowed, ended⟩ := ahead_of_takeSegments moreRead
      rcases ended with rfl | ⟨other, _⟩
      · rw [List.append_nil] at same
        have divided : (before ++ '[' :: inside) ++ [']'] =
            (name ++ '[' :: consumed ++ [']']) ++ '.' :: after := by
          rw [closed] at whole
          simpa using whole
        have last : ']' ∈ '.' :: after := by
          have ends := congrArg List.getLast? divided
          rw [List.getLast?_concat, List.getLast?_append, List.getLast?_cons, Option.some_or,
            ← List.getLast?_cons] at ends
          exact List.mem_of_getLast? ends.symm
        rcases List.mem_cons.mp last with point | later
        · simp at point
        · exact absurd rfl (not_bracket (allowed _ (same ▸ later))).2
      · simp at other

/-- The last segment of a path has a filter. -/
def EndsInFilter (segments : List Segment) : Prop :=
  ∃ init name filter, segments = init ++ [⟨name, some filter⟩]

theorem segmentsChars_endsInFilter {segments : List Segment} (ends : EndsInFilter segments) :
    ∃ before filter, (∃ segment ∈ segments, segment.filter = some filter) ∧
      segmentsChars segments = before ++ '[' :: (filter.chars ++ [']']) := by
  obtain ⟨init, name, filter, rfl⟩ := ends
  suffices ∃ before, segmentsChars (init ++ [⟨name, some filter⟩]) =
      before ++ '[' :: (filter.chars ++ [']']) by
    obtain ⟨before, parts⟩ := this
    exact ⟨before, filter, ⟨⟨name, some filter⟩, by simp, rfl⟩, parts⟩
  induction init with
  | nil => exact ⟨name.toList, by simp [segmentsChars, Segment.chars, moreSegmentsChars]⟩
  | cons segment more ih =>
    obtain ⟨before, parts⟩ := ih
    have chars : segmentsChars (segment :: more ++ [⟨name, some filter⟩]) =
        segment.chars ++ '.' :: segmentsChars (more ++ [⟨name, some filter⟩]) := by
      cases more <;> rfl
    refine ⟨segment.chars ++ '.' :: before, ?_⟩
    rw [chars, parts]
    simp

/-- What is accepted of a text that qualifies printed segments by any text at all names the same
schema, in front of the same segments. -/
theorem accepted_qualified {urn : List Char} {segments read : List Segment}
    {schema : Option (List Char)} {body : List Char}
    (named : ∀ segment ∈ segments, segment.IsNamed)
    (printable : ∀ segment ∈ segments, ∀ filter ∈ segment.filter, filter.Printable)
    (ends : EndsInFilter segments)
    (cut : splitUrn ((urn ++ ':' :: segmentsChars segments).takeWhile (· != '[')) = (schema, body))
    (accepted : takeSegments false
      (body ++ (urn ++ ':' :: segmentsChars segments).dropWhile (· != '[')) = .ok read) :
    schema = some urn ∧ body ++ (urn ++ ':' :: segmentsChars segments).dropWhile (· != '[') =
      segmentsChars segments := by
  by_cases bracket : '[' ∈ urn
  · -- the text would end in two brackets, one within the other
    obtain ⟨before, filter, ⟨segment, member, given⟩, parts⟩ := segmentsChars_endsInFilter ends
    have balanced := Filter.balanced_chars (printable segment member filter given)
    obtain ⟨ahead, behind, rfl, clear⟩ := List.eq_append_cons_of_mem bracket
    have all : ∀ c ∈ ahead, (c != '[') = true :=
      fun c member => bne_iff_ne.mpr fun same => clear (same ▸ member)
    have dropped : (ahead ++ '[' :: behind ++ ':' :: segmentsChars segments).dropWhile (· != '[') =
        '[' :: (behind ++ ':' :: segmentsChars segments) := by
      rw [List.append_assoc, List.cons_append]
      exact dropWhile_append_of_stops all (by simp)
    rw [dropped] at accepted
    have whole : body ++ '[' :: (behind ++ ':' :: segmentsChars segments) =
        (body ++ '[' :: (behind ++ ':' :: before)) ++ '[' :: (filter.chars ++ [']']) := by
      rw [parts]
      simp
    exact absurd (by simp) (noBracket_of_takeSegments balanced whole accepted)
  · obtain ⟨ahead, behind⟩ := ahead_qualified bracket (segmentsChars segments)
    have noColon := noColon_ahead named
    rw [behind] at accepted ⊢
    rw [ahead] at cut
    rcases splitUrn_cases (urn ++ ':' :: (segmentsChars segments).takeWhile (· != '[')) with
      uncut | ⟨found, dotted, cutAt, same, _, clear⟩
    · -- without a URN the colon is read as part of a name
      rw [uncut] at cut
      cases cut
      have whole : urn ++ ':' :: (segmentsChars segments).takeWhile (· != '[') ++
          (segmentsChars segments).dropWhile (· != '[') = urn ++ ':' :: segmentsChars segments := by
        simp [List.takeWhile_append_dropWhile]
      rw [whole] at accepted
      have colon := allowed_ahead accepted ':' (by simp [ahead])
      simp [isNameChar] at colon
    · rw [cutAt] at cut
      cases cut
      have unique := splitLastColon_append urn noColon
      rw [same, splitLastColon_append found clear] at unique
      cases unique
      exact ⟨rfl, List.takeWhile_append_dropWhile⟩

/-- What is accepted of the text of a path that ends in a filter has its schema and its names,
whether or not the schema is one that a path can spell. -/
theorem parse_render_names {path read : Path}
    (named : ∀ segment ∈ path.segments, segment.IsNamed)
    (printable : ∀ segment ∈ path.segments, ∀ filter ∈ segment.filter, filter.Printable)
    (ends : EndsInFilter path.segments) (parsed : parse path.render = .ok read) :
    read.schema = path.schema ∧ read.names = path.names := by
  have given : path.render.isEmpty = false := by
    obtain ⟨before, filter, _, parts⟩ := segmentsChars_endsInFilter ends
    obtain ⟨schema, segments⟩ := path
    cases schema <;> simp [render, chars, parts]
  obtain ⟨spelled, accepted⟩ := (parse_eq_ok_iff given).mp parsed
  simp only [render, String.toList_ofList] at spelled accepted
  generalize cut : splitUrn (path.chars.takeWhile (· != '[')) = parts at spelled accepted
  obtain ⟨schema, body⟩ := parts
  dsimp only at spelled accepted
  obtain ⟨urn, printed⟩ := path
  have same : schema = urn.map String.toList ∧
      body ++ (Path.mk urn printed).chars.dropWhile (· != '[') = segmentsChars printed := by
    cases urn with
    | none =>
      rw [chars, splitUrn_unqualified (noColon_ahead named)] at cut
      cases cut
      exact ⟨rfl, List.takeWhile_append_dropWhile⟩
    | some urn =>
      rw [chars] at cut accepted ⊢
      exact accepted_qualified named printable ends cut accepted
  rw [same.2] at accepted
  refine ⟨?_, names_of_takeSegments named printable accepted⟩
  rw [← spelled, same.1]
  cases urn <;> simp

end Path
end Scim
