import Scim.Path.Printer
import Scim.Proofs.Path.Grammar

/-! Dotted names, URNs and the attributes of comparisons: printed ones are cut back into the same
parts, and what is read prints as the characters it was read from. -/
namespace Scim

theorem isUpper_eq (c : Char) : c.isUpper = decide (65 ≤ c.val ∧ c.val ≤ 90) := rfl

theorem isLower_eq (c : Char) : c.isLower = (decide (97 ≤ c.val) && decide (c.val ≤ 122)) := rfl

theorem isAlpha_eq (c : Char) : c.isAlpha = (c.isUpper || c.isLower) := rfl

theorem toNat_of_isAttributeChar {c : Char} (allowed : isAttributeChar c = true) :
    33 ≤ c.toNat ∧ c.toNat ≤ 122 := by
  simp only [isAttributeChar, isNameChar, Char.isAlphanum, isAlpha_eq, isUpper_eq,
    isLower_eq, Char.isDigit, Bool.or_eq_true, Bool.and_eq_true, decide_eq_true_eq, beq_iff_eq]
    at allowed
  rcases allowed with ((((((⟨low, high⟩ | ⟨low, high⟩) | ⟨low, high⟩) | rfl) | rfl) | rfl) |
    rfl) | rfl
  · exact ⟨Nat.le_trans (by decide) (UInt32.le_iff_toNat_le.mp low),
      Nat.le_trans (UInt32.le_iff_toNat_le.mp high) (by decide)⟩
  · exact ⟨Nat.le_trans (by decide) (UInt32.le_iff_toNat_le.mp low),
      Nat.le_trans (UInt32.le_iff_toNat_le.mp high) (by decide)⟩
  · exact ⟨Nat.le_trans (by decide) (UInt32.le_iff_toNat_le.mp low),
      Nat.le_trans (UInt32.le_iff_toNat_le.mp high) (by decide)⟩
  all_goals decide

theorem isBlank_of_isAttributeChar {c : Char} (allowed : isAttributeChar c = true) :
    Text.isBlank c = false := by
  have bounds := toNat_of_isAttributeChar allowed
  rw [← Bool.not_eq_true, Text.isBlank, Text.inRanges_eq_true_iff]
  rintro ⟨range, member, low, high⟩
  simp only [Text.blankRanges, List.mem_cons, List.not_mem_nil, or_false] at member
  rcases member with rfl | rfl | rfl | rfl | rfl | rfl | rfl | rfl | rfl | rfl <;> omega

theorem isAttributeChar_of_isNameChar {c : Char} (name : isNameChar c = true) :
    isAttributeChar c = true := by simp [isAttributeChar, name]

theorem isNameChar_of_isAlpha {c : Char} (letter : c.isAlpha = true) : isNameChar c = true := by
  simp [isNameChar, Char.isAlphanum, letter]

theorem isAttributeChar_of_isAlpha {c : Char} (letter : c.isAlpha = true) :
    isAttributeChar c = true := isAttributeChar_of_isNameChar (isNameChar_of_isAlpha letter)

theorem skipBlank_of_stops {text : List Char} (stops : Stops Text.isBlank text) :
    Text.skipBlank text = text := by
  have kept : ([] ++ text).dropWhile Text.isBlank = text :=
    dropWhile_append_of_stops (by simp) stops
  exact kept

theorem skipBlank_space (text : List Char) :
    Text.skipBlank (' ' :: text) = Text.skipBlank text := rfl

def StartsUrn (text : List Char) : Prop := (text.take 4).map Char.toLower = ['u', 'r', 'n', ':']

instance (text : List Char) : Decidable (StartsUrn text) :=
  inferInstanceAs (Decidable ((text.take 4).map Char.toLower = ['u', 'r', 'n', ':']))

theorem eq_colon_of_toLower {c : Char} (lowered : c.toLower = ':') : c = ':' := by
  unfold Char.toLower at lowered
  split at lowered
  next capital =>
    have value := congrArg Char.toNat lowered
    have low : 65 ≤ c.toNat := UInt32.le_iff_toNat_le.mp capital.1
    have high : c.toNat ≤ 90 := UInt32.le_iff_toNat_le.mp capital.2
    have same : c.val.toNat = c.toNat := rfl
    simp only [Char.toNat, UInt32.toNat_add] at value
    simp at value
    omega
  next => exact lowered

theorem startsUrn_iff (text : List Char) : StartsUrn text ↔
    ∃ u r n rest, text = u :: r :: n :: ':' :: rest ∧
      [u, r, n].map Char.toLower = ['u', 'r', 'n'] := by
  constructor
  · intro starts
    match text, starts with
    | u :: r :: n :: colon :: rest, starts =>
      simp only [StartsUrn, List.take_succ_cons, List.take_zero, List.map_cons, List.map_nil,
        List.cons.injEq] at starts
      obtain ⟨first, second, third, fourth, _⟩ := starts
      cases eq_colon_of_toLower fourth
      exact ⟨u, r, n, rest, rfl, by simp [first, second, third]⟩
    | [], starts | [_], starts | [_, _], starts | [_, _, _], starts =>
      simp [StartsUrn] at starts
  · rintro ⟨u, r, n, rest, rfl, lowered⟩
    simp only [List.map_cons, List.map_nil, List.cons.injEq] at lowered
    simp [StartsUrn, lowered]

theorem splitLastColon_append (before : List Char) {after : List Char} (noColon : ':' ∉ after) :
    splitLastColon (before ++ ':' :: after) = some (before, after) := by
  induction before with
  | nil => simp [splitLastColon, (splitLastColon_eq_none_iff after).mpr noColon]
  | cons c rest ih => simp [splitLastColon, ih]

/-- A text in front of a colon is cut off as the URN, if it looks like one. -/
theorem splitUrn_qualified {urn dotted : List Char} (starts : StartsUrn urn)
    (noColon : ':' ∉ dotted) : splitUrn (urn ++ ':' :: dotted) = (some urn, dotted) := by
  obtain ⟨u, r, n, rest, rfl, lowered⟩ := (startsUrn_iff urn).mp starts
  simp [splitUrn, lowered, splitLastColon_append rest noColon]

theorem splitUrn_unqualified {text : List Char} (noColon : ':' ∉ text) :
    splitUrn text = (none, text) := by
  unfold splitUrn
  split
  · simp at noColon
  · rfl

theorem splitUrn_cases (text : List Char) : splitUrn text = (none, text) ∨
    ∃ urn dotted, splitUrn text = (some urn, dotted) ∧ text = urn ++ ':' :: dotted ∧
      StartsUrn urn ∧ ':' ∉ dotted := by
  unfold splitUrn
  split
  next u r n rest =>
    split
    next lowered =>
      split
      next before after found =>
        obtain ⟨rfl, noColon⟩ := splitLastColon_eq_some found
        exact .inr ⟨_, after, rfl, rfl, (startsUrn_iff _).mpr ⟨u, r, n, before, rfl, lowered⟩,
          noColon⟩
      next => exact .inl rfl
    next => exact .inl rfl
  next => exact .inl rfl

theorem StartsUrn.append {text : List Char} (starts : StartsUrn text) (more : List Char) :
    StartsUrn (text ++ more) := by
  obtain ⟨u, r, n, rest, rfl, lowered⟩ := (startsUrn_iff text).mp starts
  exact (startsUrn_iff _).mpr ⟨u, r, n, rest ++ more, rfl, lowered⟩

/-- Behind a URN what is cut off goes as far as the last colon. -/
theorem splitUrn_behind {urn : List Char} (starts : StartsUrn urn) (text : List Char) :
    splitUrn (urn ++ ':' :: text) = match splitLastColon text with
      | some (before, after) => (some (urn ++ ':' :: before), after)
      | none => (some urn, text) := by
  cases cut : splitLastColon text with
  | none => exact splitUrn_qualified starts ((splitLastColon_eq_none_iff _).mp cut)
  | some parts =>
    obtain ⟨whole, last⟩ := splitLastColon_eq_some cut
    have regroup : urn ++ ':' :: (parts.1 ++ ':' :: parts.2) =
        (urn ++ ':' :: parts.1) ++ ':' :: parts.2 := by simp
    rw [whole, regroup, splitUrn_qualified (starts.append _) last]

/-- A URN without brackets stands ahead of any filter. -/
theorem ahead_qualified {urn : List Char} (noBracket : '[' ∉ urn) (text : List Char) :
    (urn ++ ':' :: text).takeWhile (· != '[') = urn ++ ':' :: text.takeWhile (· != '[') ∧
      (urn ++ ':' :: text).dropWhile (· != '[') = text.dropWhile (· != '[') := by
  have plain : ∀ c ∈ urn, (c != '[') = true := by
    intro c member
    refine bne_iff_ne.mpr ?_
    rintro rfl
    exact noBracket member
  simp [List.takeWhile_append_of_pos plain, List.dropWhile_append_of_pos plain]

def unfiltered (names : List String) : List Segment := names.map fun name => ⟨name, none⟩

@[simp] theorem names_unfiltered (schema : Option String) (names : List String) :
    (Path.mk schema (unfiltered names)).names = names := by
  simp [Path.names, unfiltered, List.map_map, Function.comp_def]

theorem unfiltered_names {path : Path} (plain : ∀ segment ∈ path.segments, segment.filter = none) :
    unfiltered path.names = path.segments := by
  simp only [unfiltered, Path.names, List.map_map]
  conv => rhs; rw [← List.map_id path.segments]
  refine List.map_congr_left fun segment member => ?_
  cases segment with
  | mk name filter => cases plain _ member; rfl

theorem segmentsChars_unfiltered (names : List String) :
    Path.segmentsChars (unfiltered names) = ['.'].intercalate (names.map String.toList) := by
  cases names with
  | nil => rfl
  | cons first rest =>
    have more (names : List String) (name : List Char) :
        name ++ Path.moreSegmentsChars (unfiltered names) =
          ['.'].intercalate (name :: names.map String.toList) := by
      induction names generalizing name with
      | nil => simp [unfiltered, Path.moreSegmentsChars]
      | cons next rest ih =>
        rw [List.map_cons, List.intercalate_cons_cons, ← ih]
        simp [unfiltered, Path.moreSegmentsChars, Segment.chars]
    exact more rest first.toList

theorem segmentsChars_splitOnP (dotted : List Char) :
    Path.segmentsChars (unfiltered ((dotted.splitOnP (· == '.')).map String.ofList)) = dotted := by
  rw [segmentsChars_unfiltered, List.map_map]
  have same : String.toList ∘ String.ofList = id := by
    funext chars
    simp
  rw [same, List.map_id]
  exact List.intercalate_splitOn '.'

namespace Filter

theorem splitNames_cons (after : List Char) {name more : List Char} (some : name ≠ [])
    (noPoint : ∀ c ∈ name, (c == '.') = false) :
    splitNames after (name ++ '.' :: more) = (do
      let names ← splitNames after more
      .ok (String.ofList name :: names)) := by
  have all : ∀ c ∈ name, (c != '.') = true := fun c member => by simpa using noPoint c member
  have stops : Stops (· != '.') ('.' :: more) := by simp
  rw [splitNames]
  simp only [takeWhile_append_of_stops all stops, List.isEmpty_iff, some, if_false]
  split
  next ended => simp [dropWhile_append_of_stops all stops] at ended
  next point left parted =>
    rw [dropWhile_append_of_stops all stops] at parted
    cases parted
    rfl

theorem splitNames_last (after : List Char) {name : List Char} (some : name ≠ [])
    (noPoint : ∀ c ∈ name, (c == '.') = false) :
    splitNames after name = .ok [String.ofList name] := by
  have all : ∀ c ∈ name, (c != '.') = true := fun c member => by simpa using noPoint c member
  have taken := takeWhile_append_of_stops all (stops_nil _)
  have left := dropWhile_append_of_stops all (stops_nil _)
  rw [List.append_nil] at taken left
  rw [splitNames]
  simp only [taken, List.isEmpty_iff, some, if_false]
  split
  next => rfl
  next point more parted => simp [left] at parted

theorem parts_at_point (dotted : List Char) :
    (∀ c ∈ dotted, (c == '.') = false) ∨
      ∃ name more, dotted = name ++ '.' :: more ∧ ∀ c ∈ name, (c == '.') = false := by
  by_cases point : '.' ∈ dotted
  · obtain ⟨name, more, rfl, before⟩ := List.eq_append_cons_of_mem point
    refine .inr ⟨name, more, rfl, fun c member => ?_⟩
    exact beq_eq_false_iff_ne.mpr fun same => before (same ▸ member)
  · refine .inl fun c member => ?_
    exact beq_eq_false_iff_ne.mpr fun same => point (same ▸ member)

/-- Names are cut at every point, and none may be empty. -/
theorem splitNames_eq_ok (after dotted : List Char) (names : List String) :
    splitNames after dotted = .ok names ↔
      (dotted.splitOnP (· == '.')).map String.ofList = names ∧ ∀ name ∈ names, name ≠ "" := by
  induction h : dotted.length using Nat.strong_induction_on generalizing dotted names with
  | _ length ih =>
  subst h
  rcases parts_at_point dotted with noPoint | ⟨name, more, rfl, noPoint⟩
  · rw [List.splitOnP_eq_singleton noPoint]
    by_cases some : dotted = []
    · subst some
      simp [splitNames]
      rintro rfl
      simp
    · rw [splitNames_last after some noPoint]
      simp only [Except.ok.injEq, List.map_singleton]
      constructor
      · rintro rfl
        simpa using some
      · exact fun same => same.1
  · rw [List.splitOnP_append_cons_of_forall_mem noPoint '.' (by simp)]
    by_cases some : name = []
    · subst some
      rw [splitNames]
      simp
      rintro rfl
      simp
    · rw [splitNames_cons after some noPoint, bind_eq_ok, List.map_cons]
      constructor
      · rintro ⟨rest, read, same⟩
        cases same
        obtain ⟨cut, named⟩ := (ih more.length (by simp; omega) more rest rfl).mp read
        exact ⟨by rw [cut], by simpa [some] using named⟩
      · rintro ⟨rfl, named⟩
        refine ⟨_, (ih more.length (by simp; omega) more _ rfl).mpr ⟨rfl, ?_⟩, rfl⟩
        exact fun name member => named name (List.mem_cons_of_mem _ member)

end Filter

/-- The path of a comparison: its text is one run of attribute characters other than `not`, is cut
into the same schema and names, and no name is empty. -/
structure Path.IsAttribute (path : Path) : Prop where
  plain : ∀ segment ∈ path.segments, segment.filter = none
  allowed : ∀ c ∈ path.chars, isAttributeChar c = true
  schema : (splitUrn path.chars).1 = path.schema.map String.toList
  names : ((splitUrn path.chars).2.splitOnP (· == '.')).map String.ofList = path.names
  named : ∀ name ∈ path.names, name ≠ ""
  notKeyword : ¬ Caseless path.render "not"

namespace Filter

theorem chars_ne_nil {path : Path} (attributed : path.IsAttribute) : path.chars ≠ [] := by
  intro empty
  have names := attributed.names
  have cut : splitUrn [] = (none, []) := rfl
  rw [empty, cut, List.splitOnP_nil] at names
  exact attributed.named "" (by simp [← names]) rfl

theorem reading_takeAttribute_append {path : Path} (attributed : path.IsAttribute)
    {after : List Char} (stops : Stops isAttributeChar after) :
    reading (takeAttribute (path.chars ++ after)) = .ok (path, after) := by
  obtain ⟨shorter, taken⟩ := takeRun_append (chars_ne_nil attributed) attributed.allowed stops
  have names := (splitNames_eq_ok after (splitUrn path.chars).2 path.names).mpr
    ⟨attributed.names, attributed.named⟩
  have schema : (path.schema.map String.toList).map String.ofList = path.schema := by
    cases path.schema <;> simp
  rw [reading_takeAttribute, taken]
  simp only [Option.map_some, Taken.pair, names, attributed.schema, schema]
  have segments : path.names.map (fun name => Segment.mk name none) = path.segments :=
    unfiltered_names attributed.plain
  simp only [bind, Except.bind, segments]
  cases path
  rfl

/-- The path read is made of exactly the characters read. -/
theorem takeAttribute_sound {text rest : List Char} {path : Path}
    (read : reading (takeAttribute text) = .ok (path, rest)) :
    text = path.chars ++ rest ∧ Stops isAttributeChar rest ∧
      (¬ Caseless path.render "not" → path.IsAttribute) := by
  rw [reading_takeAttribute] at read
  cases found : takeRun isAttributeChar text with
  | none => simp [found] at read
  | some token =>
    obtain ⟨parts, nonempty, allowed, stops⟩ := takeRun_eq_some found
    simp only [found, Option.map_some, Taken.pair] at read
    obtain ⟨names, split, same⟩ := bind_eq_ok.mp read
    cases same
    obtain ⟨cut, named⟩ := (splitNames_eq_ok _ _ _).mp split
    have chars : Path.chars ⟨(splitUrn token.value).1.map String.ofList, unfiltered names⟩ =
        token.value := by
      rw [← cut]
      rcases splitUrn_cases token.value with whole | ⟨urn, dotted, qualified, same, _, _⟩
      · rw [whole]
        exact segmentsChars_splitOnP token.value
      · rw [qualified]
        simp only [Option.map_some, Path.chars, segmentsChars_splitOnP, String.toList_ofList]
        exact same.symm
    refine ⟨?_, stops, fun notKeyword => ⟨?_, ?_, ?_, ?_, ?_, notKeyword⟩⟩
    · exact parts.trans (congrArg (· ++ token.rest) chars.symm)
    · intro segment member
      obtain ⟨name, _, rfl⟩ := List.mem_map.mp member
      rfl
    · exact fun c member => allowed c (chars ▸ member)
    · refine (congrArg (fun text => (splitUrn text).1) chars).trans ?_
      cases (splitUrn token.value).1 <;> simp
    · refine (congrArg (fun text => ((splitUrn text).2.splitOnP _).map _) chars).trans ?_
      exact cut.trans (names_unfiltered _ names).symm
    · intro name member
      exact named name ((names_unfiltered _ names) ▸ member)

end Filter
end Scim
