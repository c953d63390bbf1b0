import Scim.Proofs.Patch.Addressing
import Scim.Proofs.Path.Brackets
import Scim.Proofs.Path.Respelling
import Scim.Proofs.Path.Soundness

/-! Paths narrowed to the elements of one value. What is read from the text of one resolves as the
path does that was narrowed, whether or not the text could be read in full; so a patch at a resolved
path is never applied to another attribute. -/
namespace Scim

theorem Json.isAtom_of_isScalar {value : Json} (scalar : value.isScalar = true) : value.IsAtom := by
  cases value with
  | null | bool | number | string => trivial
  | array | object => cases scalar

namespace Path

theorem isAttribute_value : (ofDotted "value").IsAttribute where
  plain := by decide
  allowed := List.all_eq_true.mp (by decide)
  schema := by decide
  names := by decide
  named := by decide
  notKeyword := by decide

end Path

namespace Segment

def narrowed (value : Json) (given : Option Filter) : Filter :=
  match given with
  | some filter => filter.both (.valueEquals value)
  | none => .valueEquals value

theorem narrow_eq (value : Json) (segment : Segment) :
    segment.narrow value = ⟨segment.name, some (narrowed value segment.filter)⟩ := by
  unfold narrow narrowed
  cases segment.filter <;> rfl

theorem printable_narrowed {value : Json} (atom : value.IsAtom) {given : Option Filter}
    (printable : ∀ filter ∈ given, filter.Printable) : (narrowed value given).Printable := by
  cases given with
  | none => exact ⟨Path.isAttribute_value, atom⟩
  | some filter => exact ⟨printable filter rfl, Path.isAttribute_value, atom⟩

end Segment

namespace Path

variable {path narrowed : Path} {value : Json}

theorem narrow_eq_some (narrow : path.narrow value = some narrowed) :
    ∃ init last, path.segments = init ++ [last] ∧
      narrowed = ⟨path.schema, init ++ [last.narrow value]⟩ := by
  obtain ⟨⟨base, last⟩, split, rfl⟩ := Option.map_eq_some_iff.mp narrow
  obtain ⟨_, ends, same⟩ := Option.map_eq_some_iff.mp split
  cases same
  exact ⟨path.segments.dropLast, last, (List.dropLast_append_getLast? last ends).symm, rfl⟩

theorem names_narrow (narrow : path.narrow value = some narrowed) :
    narrowed.schema = path.schema ∧ narrowed.names = path.names := by
  obtain ⟨init, last, parts, rfl⟩ := narrow_eq_some narrow
  exact ⟨rfl, by simp [names, parts, Segment.narrow_eq]⟩

theorem named_narrow (narrow : path.narrow value = some narrowed)
    (named : ∀ segment ∈ path.segments, segment.IsNamed) :
    ∀ segment ∈ narrowed.segments, segment.IsNamed := by
  obtain ⟨init, last, parts, rfl⟩ := narrow_eq_some narrow
  intro segment member
  rcases List.mem_append.mp member with earlier | final
  · exact named segment (parts ▸ List.mem_append_left _ earlier)
  · have spelled := named last (parts ▸ List.mem_append_right _ List.mem_cons_self)
    rw [List.mem_singleton.mp final, Segment.narrow_eq]
    exact ⟨spelled.some, spelled.allowed⟩

theorem printable_narrow (narrow : path.narrow value = some narrowed) (atom : value.IsAtom)
    (printable : ∀ segment ∈ path.segments, ∀ filter ∈ segment.filter, filter.Printable) :
    ∀ segment ∈ narrowed.segments, ∀ filter ∈ segment.filter, filter.Printable := by
  obtain ⟨init, last, parts, rfl⟩ := narrow_eq_some narrow
  intro segment member filter within
  rcases List.mem_append.mp member with earlier | final
  · exact printable segment (parts ▸ List.mem_append_left _ earlier) filter within
  · rw [List.mem_singleton.mp final, Segment.narrow_eq] at within
    cases within
    exact Segment.printable_narrowed atom
      (printable last (parts ▸ List.mem_append_right _ List.mem_cons_self))

theorem endsInFilter_narrow (narrow : path.narrow value = some narrowed) :
    EndsInFilter narrowed.segments := by
  obtain ⟨init, last, _, rfl⟩ := narrow_eq_some narrow
  exact ⟨init, last.name, _, by rw [Segment.narrow_eq]⟩

end Path

namespace ResourceType

variable {type : ResourceType} {written : Path} {found : Resolution}

/-- Filters do not count. -/
theorem lookup_congr (type : ResourceType) {path other : Path} (schema : path.schema = other.schema)
    (names : path.names = other.names) : type.lookup path = type.lookup other := by
  have isRoot (path : Path) : path.isRoot = path.names.isEmpty := by
    simp [Path.isRoot, Path.names]
  unfold lookup
  rw [isRoot, isRoot, schema, names]

/-- A path that was read and resolves is not the root, so it is spelled by segments. -/
theorem isSpelled_of_parse {text : String} (parsed : Path.parse text = .ok written)
    (looked : type.lookup written = some found) : written.IsSpelled := by
  rcases Path.wellFormed_of_parse parsed with rfl | ⟨spelled, _⟩
  · cases looked
  · exact spelled

/-- What is read from the text of a narrowed canonical path resolves as the path did. -/
theorem lookup_of_parse_narrow (distinct : type.Distinct) {text : String}
    (parsed : Path.parse text = .ok written) (looked : type.lookup written = some found)
    {value : Json} (scalar : value.isScalar = true) {narrowed read : Path}
    (narrow : (type.respell found written).narrow value = some narrowed)
    (reparsed : Path.parse narrowed.render = .ok read) : type.lookup read = some found := by
  have spelled := isSpelled_of_parse parsed looked
  obtain ⟨schema, names⟩ := Path.parse_render_names
    (Path.named_narrow narrow (named_respell looked spelled.named))
    (Path.printable_narrow narrow (Json.isAtom_of_isScalar scalar)
      (printable_respell spelled.printable))
    (Path.endsInFilter_narrow narrow) reparsed
  obtain ⟨sameSchema, sameNames⟩ := Path.names_narrow narrow
  rw [lookup_congr type (schema.trans sameSchema) (names.trans sameNames)]
  exact lookup_respell distinct looked

theorem resolveText_eq_ok {text : String} {path : Path} {resolved : ResolvedAttribute}
    (spelled : type.resolveText text = .ok (path, resolved)) :
    ∃ read found, Path.parse text = .ok read ∧ type.lookup read = some found ∧
      path = type.respell found read := by
  simp only [resolveText] at spelled
  split at spelled
  · cases spelled
  next read parsed =>
    split at spelled
    next resolution resolves =>
      obtain ⟨found, looked, described⟩ := Option.bind_eq_some_iff.mp resolves
      obtain ⟨definition, _, same⟩ := Option.map_eq_some_iff.mp described
      cases spelled
      cases same
      exact ⟨read, found, parsed, looked, rfl⟩
    next => cases spelled

theorem resolveText_eq_error {text : String} {error : PatchError}
    (refused : type.resolveText text = .error error) :
    (∃ fault, error = .parse fault) ∨ error = .noAttribute text := by
  unfold resolveText at refused
  split at refused
  next fault _ =>
    cases refused
    exact .inl ⟨fault, rfl⟩
  next =>
    split at refused <;> cases refused
    exact .inr rfl

end ResourceType

namespace Patch

variable {patch removal : Patch} {wanted : Bool} {path : Path} {definition : Attribute}

/-- What names an element is the value that the payload holds. -/
theorem value_of_elementPayload? {payload : Json}
    (given : patch.elementPayload? definition = some payload) : patch.value = some payload := by
  unfold elementPayload? at given
  split at given
  · split at given
    · cases given
    · rwa [← given]
  · cases given

/-- A remove by value is taken up again from the text of the path, narrowed to the value in its
payload. -/
theorem removeByValueIf_eq_some
    (rewritten : patch.removeByValueIf wanted path definition = .ok (some removal)) :
    ∃ value narrowed, value.isScalar = true ∧
      (∃ payload, patch.value = some payload ∧ payload.unwrap = some value) ∧
      path.narrow value = some narrowed ∧ removal = .remove narrowed.render := by
  simp only [removeByValueIf, removeByValue] at rewritten
  split at rewritten
  · split at rewritten
    · cases rewritten
    next payload given =>
      split at rewritten
      next value inside =>
        obtain ⟨unwrapped, scalar⟩ := Option.filter_eq_some_iff.mp inside
        obtain ⟨narrowed, narrow, same⟩ := Option.map_eq_some_iff.mp (Except.ok.inj rewritten)
        exact ⟨value, narrowed, scalar, ⟨payload, value_of_elementPayload? given, unwrapped⟩, narrow,
          same.symm⟩
      next => cases rewritten
  · cases rewritten

theorem removeByValueIf_eq_error {error : PatchError}
    (refused : patch.removeByValueIf wanted path definition = .error error) :
    error = .invalidValue patch.path .noScalarPayload := by
  unfold removeByValueIf removeByValue at refused
  split at refused
  · split at refused
    · cases refused
    · split at refused <;> cases refused
      rfl
  · cases refused

theorem removeByValueIf_of_kind {kind : OpKind} (known : patch.kind? = some kind)
    (writes : kind ≠ .remove) (wanted : Bool) (path : Path) (definition : Attribute) :
    patch.removeByValueIf wanted path definition = .ok none := by
  have kept : patch.elementPayload? definition = none := by
    rw [elementPayload?, known]
    cases patch.value <;> cases kind <;> first | rfl | exact absurd rfl writes
  rw [removeByValueIf, removeByValue, kept]
  cases wanted <;> rfl

theorem removeByValueIf_remove (wanted : Bool) (text : String) (path : Path)
    (definition : Attribute) : (remove text).removeByValueIf wanted path definition = .ok none := by
  rw [removeByValueIf]
  cases wanted <;> rfl

/-- All that a patch at a resolved path can do: it is refused at once, and not for want of an
attribute, or it is applied at a path in canonical spelling that resolves as its own does. -/
theorem applyAtPath_cases {type : ResourceType} {written : Path} {found : Resolution}
    (distinct : type.Distinct) (leads : patch.LeadsTo type written found) (options : PatchOptions)
    (kind : OpKind) :
    (∃ error, (∀ text, error ≠ .noAttribute text) ∧ ∀ resource,
      patch.applyAtPath type options kind resource = .stopped resource error) ∨
    ∃ further read operation definition, type.lookup read = some found ∧ ∀ resource,
      patch.applyAtPath type options kind resource =
        applyResolved type options operation (type.respell found read) definition further
          resource := by
  obtain ⟨definition, target⟩ := ResourceType.exists_target leads.resolved
  simp only [applyAtPath, leads.resolveText target]
  cases rewritten : patch.removeByValueIf options.removeByValue (type.respell found written)
      definition with
  | error error =>
    refine .inl ⟨error, fun text => ?_, fun _ => rfl⟩
    rw [removeByValueIf_eq_error rewritten]
    exact PatchError.noConfusion
  | ok removal =>
    cases removal with
    | none => exact .inr ⟨patch, written, kind, definition, leads.resolved, fun _ => rfl⟩
    | some removal =>
      obtain ⟨value, narrowed, scalar, -, narrow, rfl⟩ := removeByValueIf_eq_some rewritten
      have reread {read : Path} (reparsed : Path.parse narrowed.render = .ok read) :=
        ResourceType.lookup_of_parse_narrow distinct leads.parsed leads.resolved scalar narrow
          reparsed
      cases spelled : type.resolveText (Patch.remove narrowed.render).path with
      | error error =>
        simp only [spelled]
        refine .inl ⟨error, ?_, fun _ => rfl⟩
        rintro text rfl
        simp only [ResourceType.resolveText] at spelled
        split at spelled
        · cases spelled
        next read reparsed =>
          simp only [ResourceType.resolve_of_lookup (reread reparsed) target] at spelled
          cases spelled
      | ok resolved =>
        obtain ⟨path, attributed⟩ := resolved
        simp only [spelled]
        obtain ⟨read, again, reparsed, looked, rfl⟩ := ResourceType.resolveText_eq_ok spelled
        have same := reread reparsed
        rw [looked] at same
        cases same
        exact .inr ⟨.remove narrowed.render, read, .remove, attributed.definition, looked,
          fun _ => rfl⟩

end Patch
end Scim
