import Mathlib.Data.List.Forall2
import Scim.Proofs.Path.WellFormed
import Scim.Proofs.Schema.Respelling

/-! Names and attributes in another case are names and attributes still, so a path in canonical
spelling can be printed as the path it was made from can. -/
namespace Scim

theorem isNameChar_toLower (c : Char) : isNameChar c.toLower = isNameChar c := by
  rcases toLower_cases c with same | ⟨letter, lowered⟩
  · rw [same]
  · rw [isNameChar_of_isAlpha letter, isNameChar_of_isAlpha lowered]

theorem isAttributeChar_toLower (c : Char) : isAttributeChar c.toLower = isAttributeChar c := by
  rcases toLower_cases c with same | ⟨letter, lowered⟩
  · rw [same]
  · rw [isAttributeChar_of_isAlpha letter, isAttributeChar_of_isAlpha lowered]

theorem toLower_eq_iff {c mark : Char} (noLetter : mark.isAlpha = false) :
    c.toLower = mark ↔ c = mark := by
  rcases toLower_cases c with same | ⟨letter, lowered⟩
  · rw [same]
  · constructor
    · intro same
      simp [same, noLetter] at lowered
    · intro same
      simp [same, noLetter] at letter

theorem mem_of_lowered {mark : Char} (noLetter : mark.isAlpha = false) {a b : List Char}
    (same : a.map Char.toLower = b.map Char.toLower) (member : mark ∈ a) : mark ∈ b := by
  have lowered : mark.toLower ∈ b.map Char.toLower := same ▸ List.mem_map_of_mem member
  obtain ⟨other, among, equal⟩ := List.mem_map.mp lowered
  have unchanged : mark.toLower = mark := by
    rw [toLower_eq_iff noLetter]
  rw [unchanged, toLower_eq_iff noLetter] at equal
  exact equal ▸ among

/-- A text in another case parts at the same marks. -/
theorem parts_of_lowered {mark : Char} (noLetter : mark.isAlpha = false)
    {text before after : List Char}
    (same : text.map Char.toLower = (before ++ mark :: after).map Char.toLower) :
    ∃ first rest, text = first ++ mark :: rest ∧
      first.map Char.toLower = before.map Char.toLower ∧
      rest.map Char.toLower = after.map Char.toLower := by
  rw [List.map_append, List.map_cons, List.map_eq_append_iff] at same
  obtain ⟨first, others, rfl, sameFirst, sameOthers⟩ := same
  obtain ⟨c, rest, rfl, sameMark, sameRest⟩ := List.map_eq_cons_iff.mp sameOthers
  have unchanged : mark.toLower = mark := by
    rw [toLower_eq_iff noLetter]
  rw [unchanged, toLower_eq_iff noLetter] at sameMark
  exact ⟨first, rest, by rw [sameMark], sameFirst, sameRest⟩

theorem StartsUrn.of_lowered {a b : List Char} (starts : StartsUrn b)
    (same : a.map Char.toLower = b.map Char.toLower) : StartsUrn a := by
  simp only [StartsUrn] at *
  rw [← starts, List.map_take, List.map_take, same]

/-- A text in another case has a URN just if the text has. -/
theorem splitUrn_lowered {a b : List Char} (same : a.map Char.toLower = b.map Char.toLower)
    (unqualified : splitUrn b = (none, b)) : splitUrn a = (none, a) := by
  rcases splitUrn_cases a with whole | ⟨urn, dotted, _, rfl, starts, noColon⟩
  · exact whole
  · obtain ⟨first, rest, rfl, sameUrn, sameRest⟩ := parts_of_lowered (by decide) same.symm
    have clear : ':' ∉ rest := fun member => noColon (mem_of_lowered (by decide) sameRest member)
    rw [splitUrn_qualified (starts.of_lowered sameUrn) clear] at unqualified
    cases unqualified

theorem Segment.IsNamed.of_caseless {segment other : Segment} (named : other.IsNamed)
    (same : Caseless segment.name other.name) : segment.IsNamed where
  some := by
    intro empty
    have folded : folded "" = folded other.name := empty ▸ same
    have lowered : other.name.toList = [] := by simpa [Scim.folded] using folded.symm
    exact named.some (by simpa using lowered)
  allowed := all_of_lowered isNameChar_toLower same named.allowed

theorem lowered_intercalate {names others : List String} (same : List.Forall₂ Caseless names others) :
    (['.'].intercalate (names.map String.toList)).map Char.toLower =
      (['.'].intercalate (others.map String.toList)).map Char.toLower := by
  induction same with
  | nil => rfl
  | cons first rest ih =>
    cases rest with
    | nil =>
      simp only [List.map_cons, List.map_nil, List.intercalate_singleton]
      exact first
    | cons second more =>
      simp only [List.map_cons, List.intercalate_cons_cons, List.map_append] at ih ⊢
      rw [ih]
      exact congrArg (· ++ _) (congrArg (· ++ _) first)

theorem noPoint_of_splitOnP {text name : List Char} (member : name ∈ text.splitOnP (· == '.')) :
    '.' ∉ name := by
  induction h : text.length using Nat.strong_induction_on generalizing text with
  | _ length ih =>
  subst h
  rcases Filter.parts_at_point text with noPoint | ⟨first, more, rfl, noPoint⟩
  · rw [List.splitOnP_eq_singleton noPoint, List.mem_singleton] at member
    subst member
    exact fun point => by simpa using noPoint '.' point
  · rw [List.splitOnP_append_cons_of_forall_mem noPoint '.' (by simp), List.mem_cons] at member
    rcases member with rfl | later
    · exact fun point => by simpa using noPoint '.' point
    · exact ih more.length (by simp; omega) later rfl

theorem exists_of_forall₂ {α β : Type} {related : α → β → Prop} {first : List α} {second : List β}
    (pairs : List.Forall₂ related first second) {a : α} (member : a ∈ first) :
    ∃ b ∈ second, related a b := by
  induction pairs with
  | nil => cases member
  | cons head _ ih =>
    rcases List.mem_cons.mp member with rfl | later
    · exact ⟨_, List.mem_cons_self, head⟩
    · obtain ⟨b, among, held⟩ := ih later
      exact ⟨b, List.mem_cons_of_mem _ among, held⟩

theorem exists_of_mem_zipWith {α β γ : Type} {f : α → β → γ} {first : List α} {second : List β}
    {c : γ} (member : c ∈ List.zipWith f first second) :
    ∃ a ∈ first, ∃ b ∈ second, f a b = c := by
  rw [← List.map_uncurry_zip_eq_zipWith, List.mem_map] at member
  obtain ⟨⟨a, b⟩, pair, same⟩ := member
  have parts := List.of_mem_zip pair
  exact ⟨a, parts.1, b, parts.2, same⟩

namespace Path

theorem chars_unqualified {path : Path} (unqualified : path.schema = none)
    (plain : ∀ segment ∈ path.segments, segment.filter = none) :
    path.chars = ['.'].intercalate (path.names.map String.toList) := by
  have segments := unfiltered_names plain
  obtain ⟨schema, spelled⟩ := path
  cases unqualified
  rw [← segmentsChars_unfiltered, segments]
  rfl

namespace IsAttribute

variable {path other : Path}

theorem splitUrn_chars (attributed : path.IsAttribute) (unqualified : path.schema = none) :
    splitUrn path.chars = (none, path.chars) := by
  rcases splitUrn_cases path.chars with whole | ⟨urn, dotted, cut, _⟩
  · exact whole
  · have schema := attributed.schema
    rw [cut, unqualified] at schema
    cases schema

theorem names_ne_nil (attributed : path.IsAttribute) : path.names ≠ [] := by
  rw [← attributed.names]
  simp [List.splitOnP_ne_nil]

theorem noPoint (attributed : path.IsAttribute) : ∀ name ∈ path.names, '.' ∉ name.toList := by
  intro name member
  rw [← attributed.names] at member
  obtain ⟨part, parted, rfl⟩ := List.mem_map.mp member
  rw [String.toList_ofList]
  exact noPoint_of_splitOnP parted

theorem names_of_caseless (attributed : other.IsAttribute)
    (same : List.Forall₂ Caseless path.names other.names) :
    path.names ≠ [] ∧ ∀ name ∈ path.names, '.' ∉ name.toList ∧ name ≠ "" := by
  constructor
  · intro empty
    rw [empty] at same
    exact attributed.names_ne_nil (List.forall₂_nil_left_iff.mp same)
  · intro name member
    obtain ⟨otherName, among, equal⟩ := exists_of_forall₂ same member
    constructor
    · intro point
      exact attributed.noPoint otherName among (mem_of_lowered (by decide) equal point)
    · rintro rfl
      have empty : otherName.toList = [] := List.map_eq_nil_iff.mp equal.symm
      exact attributed.named otherName among (by simpa using empty)

theorem of_caseless (attributed : other.IsAttribute) (unqualified : path.schema = none)
    (otherUnqualified : other.schema = none)
    (plain : ∀ segment ∈ path.segments, segment.filter = none)
    (same : List.Forall₂ Caseless path.names other.names) : path.IsAttribute := by
  obtain ⟨some, spelled⟩ := attributed.names_of_caseless same
  have chars := chars_unqualified unqualified plain
  have lowered : path.chars.map Char.toLower = other.chars.map Char.toLower := by
    rw [chars, chars_unqualified otherUnqualified attributed.plain]
    exact lowered_intercalate same
  have whole := splitUrn_lowered lowered (attributed.splitUrn_chars otherUnqualified)
  refine ⟨plain, all_of_lowered isAttributeChar_toLower lowered attributed.allowed, ?_, ?_,
    fun name member => (spelled name member).2, ?_⟩
  · rw [whole, unqualified]
    rfl
  · have noPoint : ∀ name ∈ path.names.map String.toList, '.' ∉ name := by
      intro name member
      obtain ⟨original, among, rfl⟩ := List.mem_map.mp member
      exact (spelled original among).1
    have parted := List.splitOn_intercalate '.' noPoint (by simpa using some)
    rw [List.splitOn] at parted
    rw [whole, chars, parted, List.map_map]
    simp [Function.comp_def]
  · intro keyword
    refine attributed.notKeyword (Eq.trans ?_ keyword)
    simp only [folded, render, String.toList_ofList]
    exact lowered.symm

end IsAttribute
end Path

/-- Every URN is one that a path can spell. -/
def ResourceType.SpellsUrns (type : ResourceType) : Prop :=
  ∀ id ∈ type.ids, StartsUrn id.toList ∧ '[' ∉ id.toList

theorem Attribute.isAttribute_respellPath (scope : Attribute) {path : Path}
    (attributed : path.IsAttribute) : (scope.respellPath path).IsAttribute := by
  simp only [respellPath]
  split
  next chain unqualified walked =>
    have length : chain.length = path.segments.length := by
      rw [walk_length walked, Path.names, List.length_map]
    refine attributed.of_caseless unqualified unqualified ?_ ?_
    · intro segment member
      obtain ⟨original, among, _, _, rfl⟩ := exists_of_mem_zipWith member
      exact attributed.plain original among
    · have names : (respellSegments path.segments chain).map (·.name) = chain.map (·.name) :=
        ResourceType.names_zipWith (fun _ _ => rfl) _ _ length
      rw [Path.names, names]
      exact walk_caseless walked
  next => exact attributed

theorem Filter.Printable.mapPaths {filter : Filter} (printable : filter.Printable) {f : Path → Path}
    (kept : ∀ path : Path, path.IsAttribute → (f path).IsAttribute) :
    (filter.mapPaths f).Printable := by
  induction filter with
  | compare path op value => exact ⟨kept path printable.1, printable.2⟩
  | logical op left right left_ih right_ih =>
    exact ⟨left_ih printable.1, right_ih printable.2⟩
  | not inner ih => exact ih printable

namespace ResourceType

variable {type : ResourceType} {path : Path} {found : Resolution}

theorem named_respell (looked : type.lookup path = some found)
    (named : ∀ segment ∈ path.segments, segment.IsNamed) :
    ∀ segment ∈ (type.respell found path).segments, segment.IsNamed := by
  intro segment member
  have name : segment.name ∈ (type.respell found path).names := List.mem_map_of_mem member
  rw [names_respell looked] at name
  obtain ⟨spelled, among, same⟩ := exists_of_forall₂ (chain_caseless looked) name
  obtain ⟨original, given, rfl⟩ := List.mem_map.mp among
  exact (named original given).of_caseless same

theorem printable_respell
    (printable : ∀ segment ∈ path.segments, ∀ filter ∈ segment.filter, filter.Printable) :
    ∀ segment ∈ (type.respell found path).segments, ∀ filter ∈ segment.filter,
      filter.Printable := by
  intro segment member filter within
  obtain ⟨original, given, definition, _, rfl⟩ := exists_of_mem_zipWith member
  obtain ⟨spelled, among, rfl⟩ := Option.map_eq_some_iff.mp within
  exact (printable original given spelled among).mapPaths fun _ => definition.isAttribute_respellPath

theorem unfiltered_respell (plain : ∀ segment ∈ path.segments, segment.filter = none) :
    ∀ segment ∈ (type.respell found path).segments, segment.filter = none := by
  intro segment member
  obtain ⟨original, given, definition, _, rfl⟩ := exists_of_mem_zipWith member
  rw [Attribute.respellSegment, plain original given]
  rfl

end ResourceType

theorem staffType_spellsUrns : staffType.SpellsUrns := by
  unfold ResourceType.SpellsUrns StartsUrn
  decide

end Scim
