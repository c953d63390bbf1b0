import Scim.Proofs.Path.Respelling

/-! Paths and filters with all their names and URNs in small letters. Where two of them are then the
same they differ in the case of names only: they have the same segments, filters at the same places,
and in them the same connectives, operators and values. -/
namespace Scim

theorem toLower_toLower (c : Char) : c.toLower.toLower = c.toLower := by
  induction c using toLower_induct with
  | capital code low high => interval_cases code <;> decide
  | kept c same => rw [same, same]

theorem map_toLower_again (text : List Char) :
    (text.map Char.toLower).map Char.toLower = text.map Char.toLower := by
  rw [List.map_map]
  exact List.map_congr_left fun c _ => toLower_toLower c

def lowered (text : String) : String := String.ofList (folded text)

@[simp] theorem toList_lowered (text : String) :
    (lowered text).toList = text.toList.map Char.toLower := by
  rw [lowered, String.toList_ofList, folded]

theorem lowered_eq_iff {a b : String} : lowered a = lowered b ↔ Caseless a b := by
  constructor
  · intro same
    have chars := congrArg String.toList same
    rw [toList_lowered, toList_lowered] at chars
    exact chars
  · exact congrArg String.ofList

theorem lowered_caseless (text : String) : Caseless (lowered text) text := by
  rw [Caseless, folded, folded, toList_lowered, map_toLower_again]

theorem lowered_ofList (chars : List Char) :
    lowered (String.ofList chars) = String.ofList (chars.map Char.toLower) := by
  rw [lowered, folded, String.toList_ofList]

mutual

def Filter.lowered : Filter → Filter
  | .compare path op value => .compare path.lowered op value
  | .logical op left right => .logical op left.lowered right.lowered
  | .not inner => .not inner.lowered

def Segment.lowered : Segment → Segment
  | ⟨name, none⟩ => ⟨Scim.lowered name, none⟩
  | ⟨name, some filter⟩ => ⟨Scim.lowered name, some filter.lowered⟩

def Path.lowered : Path → Path
  | ⟨schema, segments⟩ => ⟨schema.map Scim.lowered, Segment.loweredAll segments⟩

def Segment.loweredAll : List Segment → List Segment
  | [] => []
  | segment :: rest => segment.lowered :: Segment.loweredAll rest

end

namespace Segment

theorem loweredAll_eq_map (segments : List Segment) : loweredAll segments = segments.map lowered := by
  induction segments with
  | nil => rfl
  | cons segment rest ih => rw [loweredAll, ih, List.map_cons]

theorem lowered_eq (segment : Segment) :
    segment.lowered = ⟨Scim.lowered segment.name, segment.filter.map Filter.lowered⟩ := by
  obtain ⟨name, filter⟩ := segment
  cases filter <;> rfl

/-- Two segments that differ in case have names that differ in case, and filters that do. -/
theorem lowered_eq_iff {segment other : Segment} :
    segment.lowered = other.lowered ↔ Caseless segment.name other.name ∧
      segment.filter.map Filter.lowered = other.filter.map Filter.lowered := by
  rw [lowered_eq, lowered_eq, Segment.mk.injEq, Scim.lowered_eq_iff]

end Segment

namespace Path

theorem lowered_eq (path : Path) :
    path.lowered = ⟨path.schema.map Scim.lowered, path.segments.map Segment.lowered⟩ := by
  obtain ⟨schema, segments⟩ := path
  rw [lowered, Segment.loweredAll_eq_map]

theorem names_lowered (path : Path) : path.lowered.names = path.names.map Scim.lowered := by
  rw [lowered_eq, names, names, List.map_map, List.map_map]
  refine List.map_congr_left fun segment _ => ?_
  rw [Function.comp_apply, Segment.lowered_eq, Function.comp_apply]

theorem names_lowered_caseless (path : Path) : List.Forall₂ Caseless path.lowered.names path.names := by
  rw [names_lowered, List.forall₂_map_left_iff, List.forall₂_same]
  exact fun name _ => lowered_caseless name

theorem isRoot_lowered (path : Path) : path.lowered.isRoot = path.isRoot := by
  rw [lowered_eq, isRoot, isRoot, List.isEmpty_map]

end Path

/-- Segments of one name whose filters differ in the case of names only. -/
structure Segment.Alike (segment other : Segment) : Prop where
  name : segment.name = other.name
  filter : Option.Rel (fun first second => first.lowered = second.lowered) segment.filter other.filter

structure Path.Alike (path other : Path) : Prop where
  schema : path.schema = other.schema
  segments : List.Forall₂ Segment.Alike path.segments other.segments

theorem forall₂_concat {α β : Type} {related : α → β → Prop} {init : List α} {last : α}
    {others : List β} (pairs : List.Forall₂ related (init ++ [last]) others) :
    ∃ initOther lastOther, others = initOther ++ [lastOther] ∧
      List.Forall₂ related init initOther ∧ related last lastOther := by
  rw [← List.forall₂_reverse_iff, List.reverse_concat, List.forall₂_cons_left_iff] at pairs
  obtain ⟨lastOther, initOther, same, rest, reversed⟩ := pairs
  refine ⟨initOther.reverse, lastOther, ?_, ?_, same⟩
  · rw [← List.reverse_cons, ← reversed, List.reverse_reverse]
  · rwa [← List.forall₂_reverse_iff, List.reverse_reverse]

namespace Path.Alike

variable {path other : Path}

theorem names (alike : path.Alike other) : path.names = other.names := by
  rw [Path.names, Path.names, ← List.forall₂_eq_eq_eq, List.forall₂_map_left_iff,
    List.forall₂_map_right_iff]
  exact alike.segments.imp fun _ _ same => same.name

theorem isRoot (alike : path.Alike other) : path.isRoot = other.isRoot := by
  obtain ⟨_, segments⟩ := path
  obtain ⟨_, others⟩ := other
  cases alike.segments <;> rfl

theorem split? (alike : path.Alike other) :
    (path.split? = none ∧ other.split? = none) ∨
      ∃ base last baseOther lastOther, path.split? = some (base, last) ∧
        other.split? = some (baseOther, lastOther) ∧ base.Alike baseOther ∧
        last.Alike lastOther := by
  obtain ⟨schema, segments⟩ := path
  obtain ⟨otherSchema, others⟩ := other
  obtain ⟨same, pairs⟩ := alike
  rcases List.eq_nil_or_concat' segments with rfl | ⟨init, last, rfl⟩
  · cases pairs
    exact .inl ⟨rfl, rfl⟩
  · obtain ⟨initOther, lastOther, rfl, before, ends⟩ := forall₂_concat pairs
    refine .inr ⟨⟨schema, init⟩, last, ⟨otherSchema, initOther⟩, lastOther, ?_, ?_,
      ⟨same, before⟩, ends⟩
    · simp [Path.split?]
    · simp [Path.split?]

end Path.Alike
end Scim
