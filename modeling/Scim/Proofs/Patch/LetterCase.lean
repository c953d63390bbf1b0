import Scim.Proofs.Path.LoweredPrinting
import Scim.Proofs.Resource.LetterCase

/-! The case of letters in a patch does not matter. Patches whose operation words differ in it, and
whose paths do outside string literals, leave the same of an unambiguous resource, also where they
are refused and where a remove by value is rewritten. -/
namespace Scim

/-- Answers that are related, or both refused with errors of one variant. -/
inductive AnsweredAlike {α : Type} (related : α → α → Prop) :
    Except PatchError α → Except PatchError α → Prop where
  | ok {answer other : α} (held : related answer other) :
    AnsweredAlike related (.ok answer) (.ok other)
  | error {error other : PatchError} (variant : error.ctorIdx = other.ctorIdx) :
    AnsweredAlike related (.error error) (.error other)

/-- Texts that are read as paths in different case, or are both refused. -/
def Path.ReadAlike (text other : String) : Prop :=
  (parse text).toOption.map lowered = (parse other).toOption.map lowered

namespace ResourceType

/-- Such texts resolve to the same attribute, or both to none. -/
theorem resolveText_alike (type : ResourceType) {text other : String}
    (same : Path.ReadAlike text other) :
    AnsweredAlike (fun first second => first.1.Alike second.1 ∧ first.2 = second.2)
      (type.resolveText text) (type.resolveText other) := by
  unfold Path.ReadAlike at same
  unfold resolveText
  cases parsed : Path.parse text with
  | error error =>
    cases otherParsed : Path.parse other with
    | error otherError => exact .error rfl
    | ok => rw [parsed, otherParsed] at same; cases same
  | ok path =>
    cases otherParsed : Path.parse other with
    | error => rw [parsed, otherParsed] at same; cases same
    | ok otherPath =>
      rw [parsed, otherParsed] at same
      have lowered : path.lowered = otherPath.lowered := Option.some.inj same
      have looked : type.lookup path = type.lookup otherPath := by
        rw [← type.lookup_lowered path, lowered, type.lookup_lowered]
      simp only [resolve, looked]
      cases type.lookup otherPath with
      | none => exact .error rfl
      | some found =>
        simp only [Option.bind_some]
        cases type.describe found with
        | none => exact .error rfl
        | some resolved => exact .ok ⟨type.respell_alike found lowered, rfl⟩

theorem printable_resolveText {type : ResourceType} {text : String} {path : Path}
    {resolved : ResolvedAttribute} (spelled : type.resolveText text = .ok (path, resolved)) :
    (∀ segment ∈ path.segments, segment.IsNamed) ∧
      ∀ segment ∈ path.segments, ∀ filter ∈ segment.filter, filter.Printable := by
  obtain ⟨read, found, parsed, looked, rfl⟩ := resolveText_eq_ok spelled
  have written := isSpelled_of_parse parsed looked
  exact ⟨named_respell looked written.named, printable_respell written.printable⟩

end ResourceType

theorem Segment.Alike.narrow {segment other : Segment} (alike : segment.Alike other)
    (value : Json) : (segment.narrow value).Alike (other.narrow value) := by
  obtain ⟨name, filter⟩ := segment
  obtain ⟨_, otherFilter⟩ := other
  obtain ⟨rfl, filters⟩ := alike
  cases filters with
  | none => exact ⟨rfl, .some rfl⟩
  | some same =>
    refine ⟨rfl, .some ?_⟩
    rw [Filter.both, Filter.both, Filter.lowered, Filter.lowered, same]

theorem Path.Alike.narrow {path other : Path} (alike : path.Alike other) (value : Json) :
    (path.narrow value = none ∧ other.narrow value = none) ∨
      ∃ narrowed otherNarrowed, path.narrow value = some narrowed ∧
        other.narrow value = some otherNarrowed ∧ narrowed.Alike otherNarrowed := by
  unfold Path.narrow
  rcases alike.split? with ⟨whole, otherWhole⟩ | ⟨base, last, otherBase, otherLast, parts, otherParts,
    bases, lasts⟩
  · rw [whole, otherWhole]
    exact .inl ⟨rfl, rfl⟩
  · rw [parts, otherParts]
    exact .inr ⟨_, _, rfl, rfl, bases.schema,
      List.rel_append bases.segments (.cons (lasts.narrow value) .nil)⟩

namespace Patch

/-- Patches of one value. Their operation words differ in the case of letters at most, and so do
their paths outside string literals. -/
structure DiffersInCase (patch other : Patch) : Prop where
  op : Caseless patch.op other.op
  path : Path.loweredText patch.path.toList = Path.loweredText other.path.toList
  value : patch.value = other.value

variable {patch other : Patch} {type : ResourceType} {resource : Resource}

namespace DiffersInCase

theorem kind? (same : patch.DiffersInCase other) : patch.kind? = other.kind? := by
  have word (kind : OpKind) : Caseless patch.op kind.word ↔ Caseless other.op kind.word :=
    ⟨same.op.symm.trans, same.op.trans⟩
  simp only [Patch.kind?, OpKind.ofWord?, word]

theorem readAlike (same : patch.DiffersInCase other) : Path.ReadAlike patch.path other.path := by
  rw [Path.ReadAlike, ← Path.parse_loweredText, ← Path.parse_loweredText, same.path]

theorem isEmpty_path (same : patch.DiffersInCase other) :
    patch.path.isEmpty = other.path.isEmpty := by
  have empty (text : String) : text.isEmpty = (Path.loweredText text.toList).isEmpty := by
    rw [Bool.eq_iff_iff, List.isEmpty_iff, Path.loweredText_eq_nil]
    simp
  rw [empty, empty, same.path]

theorem elementPayload? (same : patch.DiffersInCase other) (definition : Attribute) :
    patch.elementPayload? definition = other.elementPayload? definition := by
  rw [Patch.elementPayload?, Patch.elementPayload?, same.value, same.kind?]

end DiffersInCase

theorem preparedValue_alike (same : patch.DiffersInCase other) (options : PatchOptions)
    (kind : OpKind) (definition : Attribute) :
    AnsweredAlike Eq (patch.preparedValue options kind definition)
      (other.preparedValue options kind definition) := by
  unfold preparedValue
  rw [same.value]
  cases other.value with
  | none => exact .error rfl
  | some value =>
    dsimp only
    split
    · unfold Attribute.normalize
      split
      · cases value.unwrap with
        | none => exact .error rfl
        | some inner => exact .ok rfl
      · exact .ok rfl
    · exact .ok rfl

theorem applyResolved_alike (same : patch.DiffersInCase other) (options : PatchOptions)
    {path otherPath : Path} (alike : path.Alike otherPath) (kind : OpKind) (definition : Attribute)
    (clear : resource.document.Unambiguous) :
    (patch.applyResolved type options kind path definition resource).Alike
      (other.applyResolved type options kind otherPath definition resource) := by
  have prepared := preparedValue_alike same options kind definition
  cases kind with
  | remove => exact resource.remove_alike alike definition clear
  | add =>
    rw [applyResolved, applyResolved]
    generalize patch.preparedValue options .add definition = answer,
      other.preparedValue options .add definition = otherAnswer at prepared
    cases prepared with
    | ok equal => exact equal ▸ resource.add_alike alike definition _ clear
    | error variant => exact .stopped _ variant
  | replace =>
    rw [applyResolved, applyResolved]
    generalize patch.preparedValue options .replace definition = answer,
      other.preparedValue options .replace definition = otherAnswer at prepared
    cases prepared with
    | ok equal => exact equal ▸ resource.replace_alike alike _ clear
    | error variant => exact .stopped _ variant

/-- A remove by value is refused or left alone for both, or rewritten to paths that are read
alike. -/
theorem removeByValueIf_alike (same : patch.DiffersInCase other) (wanted : Bool) {text otherText : String}
    {path otherPath : Path} {resolved : ResolvedAttribute}
    (spelled : type.resolveText text = .ok (path, resolved))
    (otherSpelled : type.resolveText otherText = .ok (otherPath, resolved))
    (alike : path.Alike otherPath) :
    AnsweredAlike (Option.Rel fun first second => Path.ReadAlike first.path second.path)
      (patch.removeByValueIf wanted path resolved.definition)
      (other.removeByValueIf wanted otherPath resolved.definition) := by
  unfold removeByValueIf
  cases wanted with
  | false => exact .ok .none
  | true =>
    simp only [if_true, removeByValue, same.elementPayload?]
    cases other.elementPayload? resolved.definition with
    | none => exact .ok .none
    | some payload =>
      dsimp only
      cases unwrapped : payload.unwrap.filter Json.isScalar with
      | none => exact .error rfl
      | some value =>
        rcases alike.narrow value with ⟨whole, otherWhole⟩ | ⟨narrowed, otherNarrowed, narrow,
          otherNarrow, narrowAlike⟩
        · simp only [whole, otherWhole]
          exact .ok .none
        · -- the two texts differ in case although what a filter names may be spelled in either
          have atom := Json.isAtom_of_isScalar (Option.filter_eq_some_iff.mp unwrapped).2
          obtain ⟨named, printable⟩ := ResourceType.printable_resolveText spelled
          obtain ⟨otherNamed, otherPrintable⟩ := ResourceType.printable_resolveText otherSpelled
          simp only [narrow, otherNarrow]
          exact .ok (.some (Path.parse_render_alike narrowAlike (Path.endsInFilter_narrow narrow)
            (Path.endsInFilter_narrow otherNarrow) (Path.named_narrow narrow named)
            (Path.named_narrow otherNarrow otherNamed) (Path.printable_narrow narrow atom printable)
            (Path.printable_narrow otherNarrow atom otherPrintable)))

theorem applyAtPath_alike (same : patch.DiffersInCase other) (options : PatchOptions) (kind : OpKind)
    (clear : resource.document.Unambiguous) :
    (patch.applyAtPath type options kind resource).Alike
      (other.applyAtPath type options kind resource) := by
  have answers := type.resolveText_alike same.readAlike
  unfold applyAtPath
  generalize spelled : type.resolveText patch.path = answer,
    otherSpelled : type.resolveText other.path = otherAnswer at answers
  cases answers with
  | error variant => exact .stopped _ variant
  | @ok first second held =>
    obtain ⟨path, resolved⟩ := first
    obtain ⟨otherPath, _⟩ := second
    obtain ⟨alike, rfl⟩ := held
    have rewritten := removeByValueIf_alike same options.removeByValue spelled otherSpelled alike
    dsimp only
    generalize patch.removeByValueIf options.removeByValue path resolved.definition = removal,
      other.removeByValueIf options.removeByValue otherPath resolved.definition = otherRemoval
      at rewritten
    cases rewritten with
    | error variant => exact .stopped _ variant
    | ok related =>
      cases related with
      | none => exact applyResolved_alike same options alike kind resolved.definition clear
      | @some removal otherRemoval readAlike =>
        -- both are taken up again from the texts of their new paths
        have again := type.resolveText_alike readAlike
        dsimp only
        generalize type.resolveText removal.path = answer,
          type.resolveText otherRemoval.path = otherAnswer at again
        cases again with
        | error variant => exact .stopped _ variant
        | @ok first second held =>
          obtain ⟨path, resolved⟩ := first
          obtain ⟨otherPath, _⟩ := second
          obtain ⟨alike, rfl⟩ := held
          exact resource.remove_alike alike resolved.definition clear

/-- **The case of letters does not matter.** Patches that differ in it leave the same of a resource
in which no object has two keys that are equal but for case, and both come to the end or stop with
errors of one variant. -/
theorem apply_alike (same : patch.DiffersInCase other) (type : ResourceType) (options : PatchOptions)
    (clear : resource.document.Unambiguous) :
    (patch.apply type options resource).Alike (other.apply type options resource) := by
  unfold apply
  rw [same.kind?, same.isEmpty_path, same.value]
  cases other.kind? with
  | none => exact .stopped _ rfl
  | some kind =>
    dsimp only
    split
    · exact applyAtPath_alike same options kind clear
    · exact .refl _

/-- Removes a label by its value, among those that start alike. No attribute `value` is defined for
labels, so the filter keeps the spelling it is given in. -/
def removeLabel : Patch :=
  ⟨"remove", "urn:core:User:emails.labels[value sw \"x\"]", some (.string "xy")⟩

def removeLabelInCapitals : Patch :=
  ⟨"REMOVE", "URN:CORE:USER:EMAILS.LABELS[VALUE SW \"x\"]", some (.string "xy")⟩

def labelledMails : Resource :=
  ⟨[("Emails", .array [.object [("LABELS", .array [.string "xy", .string "xz"])]])]⟩

theorem removeLabel_alike :
    removeLabel.DiffersInCase removeLabelInCapitals ∧
    (removeLabel.apply staffType {} labelledMails).Alike
      (removeLabelInCapitals.apply staffType {} labelledMails) ∧
    removeLabelInCapitals.apply staffType {} labelledMails =
      .done ⟨[("Emails", .array [.object [("LABELS", .array [.string "xz"])]])]⟩ := by
  have same : removeLabel.DiffersInCase removeLabelInCapitals := ⟨by decide, by decide +kernel, rfl⟩
  refine ⟨same, apply_alike same staffType {} ?_, by decide +kernel⟩
  simp [labelledMails, Resource.document, Fields.Distinct, Fields.keys, Json.Unambiguous,
    Json.itemsUnambiguous, Json.fieldsUnambiguous]

end Patch
end Scim
