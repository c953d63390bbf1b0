import Scim.Proofs.Patch.Keys
import Scim.Proofs.Patch.RemoveByValue
import Scim.Proofs.Resource.Composition

/-! Replacements and removals may be repeated. A patch that has succeeded succeeds again and changes
nothing more, even where what it has written changes what its own path selects. -/
namespace Scim

namespace Fields

variable {fields : Fields}

theorem setField_again (fields : Fields) (name : String) (value : Json) :
    (fields.setField name value).setField name value = fields.setField name value := by
  rw [setField, setField, keyFor_set_keyFor, set_set]

/-- Where no two keys differ in case only, a name that was erased is gone in every spelling. -/
theorem key?_erase_keyFor (distinct : fields.Distinct) (name : String) :
    (fields.erase (fields.keyFor name)).key? name = none := by
  cases spelled : (fields.erase (fields.keyFor name)).key? name with
  | none => rfl
  | some key =>
    have same := key?_caseless spelled
    have left := key?_mem spelled
    rw [keys_erase, List.mem_filter, bne_iff_ne] at left
    have own : fields.key? key = some key := if_pos left.1
    rw [key?_congr distinct same] at own
    exact absurd (by rw [keyFor, own, Option.getD_some]) left.2

theorem keepElements_present {name : String} {value : Json} (found : fields.find? name = some value)
    (present : value ≠ .null) (keep : Json → Bool) :
    fields.keepElements name keep =
      if ((MultiValued.elementsOf value).filter keep).isEmpty then fields.erase (fields.keyFor name)
      else fields.set (fields.keyFor name) (.array ((MultiValued.elementsOf value).filter keep)) := by
  cases value with
  | null => exact absurd rfl present
  | _ => simp only [keepElements, found]

theorem keepElements_keepElements (distinct : fields.Distinct) (name : String)
    (first second : Json → Bool) :
    (fields.keepElements name first).keepElements name second =
      fields.keepElements name fun element => first element && second element := by
  by_cases absent : fields.find? name = none ∨ fields.find? name = some .null
  · have kept (keep : Json → Bool) : fields.keepElements name keep = fields := by
      rcases absent with none | null
      · rw [keepElements, none]
      · rw [keepElements, null]
    rw [kept, kept, kept]
  · rw [not_or] at absent
    obtain ⟨value, found⟩ := Option.ne_none_iff_exists'.mp absent.1
    have present : value ≠ .null := fun null => absent.2 (null ▸ found)
    have both : (MultiValued.elementsOf value).filter (fun element => first element && second element) =
        ((MultiValued.elementsOf value).filter first).filter second := by
      rw [List.filter_filter]
      exact List.filter_congr fun element _ => Bool.and_comm ..
    rw [keepElements_present found present, keepElements_present found present, both]
    generalize (MultiValued.elementsOf value).filter first = kept
    by_cases empty : kept.isEmpty = true
    · have gone := key?_erase_keyFor distinct name
      rw [← find?_eq_none_iff] at gone
      rw [if_pos empty, keepElements, gone, List.isEmpty_iff.mp empty]
      rfl
    · rw [if_neg empty, keepElements_present (find?_written fields name _) Json.noConfusion,
        keyFor_set_keyFor, erase_set, set_set]
      rfl

/-- A second removal finds nothing to remove. -/
theorem removeField_again (clear : (Json.object fields).Unambiguous) (name : String)
    (filter : Option Filter) (scope : Scope) :
    (fields.removeField name filter scope).removeField name filter scope =
      fields.removeField name filter scope := by
  have distinct := ((Json.unambiguous_object fields).mp clear).1
  cases filter with
  | none =>
    cases spelled : fields.key? name with
    | none => simp only [removeField, spelled]
    | some key =>
      have gone := key?_erase_keyFor distinct name
      rw [keyFor, spelled, Option.getD_some] at gone
      simp only [removeField, spelled, gone]
  | some filter =>
    rw [removeField_filter, removeField_filter, keepElements_keepElements distinct]
    simp only [Bool.and_self]

end Fields

/-- What has to be known of a resource for an operation to be repeated. Removal takes one of two
keys that differ in case only, and then the other. -/
def OpKind.RepeatsOn : OpKind → Json → Prop
  | .add, _ => False
  | .replace, _ => True
  | .remove, value => value.Unambiguous

namespace OpKind

variable {kind : OpKind}

theorem hereditary_repeatsOn (repeats : kind ≠ .add) : Json.Hereditary kind.RepeatsOn := by
  cases kind with
  | add => exact absurd rfl repeats
  | replace => exact Json.hereditary_true
  | remove => exact Json.hereditary_unambiguous

/-- The edit of an object may be repeated. -/
theorem holderEdit_again (repeats : kind ≠ .add) (definition : Attribute) (value : Json)
    (last : Segment) :
    HolderEdit.Composes kind.RepeatsOn (kind.holderEdit definition value last)
      (kind.holderEdit definition value last) (kind.holderEdit definition value last) := by
  cases kind with
  | add => exact absurd rfl repeats
  | replace =>
    exact ⟨fun fields _ => Fields.setField_again fields last.name value,
      fun fields _ => Fields.setField_again fields last.name value⟩
  | remove =>
    exact ⟨fun _ clear => Fields.removeField_again clear ..,
      fun _ clear => Fields.removeField_again clear ..⟩

end OpKind

namespace Patch

variable {type : ResourceType} {options : PatchOptions} {kind : OpKind} {patch : Patch}
  {resource result : Resource}

theorem applyResolved_again (distinct : type.Distinct) {path : Path} {found : Resolution}
    (looked : type.lookup path = some found) {definition : Attribute}
    (repeats : kind.RepeatsOn resource.document)
    (done : patch.applyResolved type options kind (type.respell found path) definition resource =
      .done result) :
    patch.applyResolved type options kind (type.respell found path) definition result =
      .done result := by
  have other : kind ≠ .add := by
    rintro rfl
    exact repeats
  obtain ⟨value, prepared⟩ := exists_prepared done
  rw [applyResolved_eq _ _ _ _ _ _ value prepared] at done ⊢
  rw [Resource.changeContainers_eq_done_iff distinct looked _
    (Resource.done?_containerChange kind _ definition value)] at done ⊢
  rw [Resource.descend_composes (OpKind.hereditary_repeatsOn other)
    (OpKind.holderEdit_again other definition value) type _ _ _ (.inr rfl) resource result repeats
    done]
  exact done

/-- **Replacements and removals may be repeated.** A patch that has been applied to the end is
applied to the end again and leaves the resource as it is. -/
theorem apply_again (distinct : type.Distinct) (options : PatchOptions) (patch : Patch)
    (known : patch.kind? = some kind) (resource result : Resource)
    (repeats : kind = .replace ∨ kind = .remove ∧ resource.document.Unambiguous)
    (done : patch.apply type options resource = .done result) :
    patch.apply type options result = .done result := by
  have repeatsOn : kind.RepeatsOn resource.document := by
    rcases repeats with rfl | ⟨rfl, clear⟩
    · trivial
    · exact clear
  have given : patch.path.isEmpty = false := by
    by_contra empty
    rcases repeats with rfl | ⟨rfl, _⟩ <;>
      simp [apply, known, empty, Outcome.stopped, Outcome.done] at done
  simp only [apply, known, given, Bool.not_false, if_true] at done ⊢
  rcases patch.applyAtPath_resolved type options kind with
    ⟨error, stops⟩ | ⟨read, found, operation, definition, looked, own, applies⟩
  · rw [stops] at done
    cases congrArg Outcome.fault done
  · cases own known
    rw [applies] at done ⊢
    exact applyResolved_again distinct looked repeatsOn done

def retypeWorkMails : Patch :=
  ⟨"replace", "emails[type eq \"work\"].type", some (.string "home")⟩

theorem retypeWorkMails_again :
    retypeWorkMails.apply sampleType {} ⟨[("emails", .array [.object [("type", .string "work")],
        .object [("type", .string "other")]])]⟩ =
      .done ⟨[("emails", .array [.object [("type", .string "home")],
        .object [("type", .string "other")]])]⟩ ∧
    retypeWorkMails.apply sampleType {} ⟨[("emails", .array [.object [("type", .string "home")],
        .object [("type", .string "other")]])]⟩ =
      .done ⟨[("emails", .array [.object [("type", .string "home")],
        .object [("type", .string "other")]])]⟩ := by
  have once : retypeWorkMails.apply sampleType {} ⟨[("emails", .array [
      .object [("type", .string "work")], .object [("type", .string "other")]])]⟩ =
        .done ⟨[("emails", .array [.object [("type", .string "home")],
          .object [("type", .string "other")]])]⟩ := by decide +kernel
  exact ⟨once, apply_again sampleType_distinct {} retypeWorkMails (by decide) _ _ (.inl rfl) once⟩

end Patch
end Scim
