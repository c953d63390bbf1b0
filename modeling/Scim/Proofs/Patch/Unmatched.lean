import Scim.Proofs.Patch.RemoveByValue
import Scim.Proofs.Resource.Holders
import Scim.Proofs.Schema.Stability

/-! A remove through a filter that holds of no element. It removes nothing, but a lone value under
the attribute is written back as the list of one element that it was taken for. -/
namespace Scim

/-- Lists a lone value under a name. -/
def Fields.listLone (fields : Fields) (name : String) : Fields :=
  match fields.find? name with
  | none | some .null | some (.array _) => fields
  | some value => fields.set (fields.keyFor name) (.array [value])

def Resource.listLone (type : ResourceType) (path : Path) :
    Resource → Outcome PatchError Resource :=
  changeContainers type false path fun last =>
    changeObjects path.render fun fields => fields.listLone last.name

namespace Fields

variable {fields : Fields} {name : String}

/-- Where all elements are kept, the field is written back as a list. One without elements would
go. -/
theorem keepElements_unmatched {keep : Json → Bool}
    (kept : ∀ element ∈ (MultiValued.ofField (fields.find? name)).items, keep element = true)
    (some : fields.find? name ≠ some (.array [])) :
    fields.keepElements name keep = fields.listLone name := by
  unfold keepElements listLone
  cases found : fields.find? name with
  | none => rfl
  | some value =>
    rw [found] at kept some
    cases value with
    | null => rfl
    | array items =>
      have all : items.filter keep = items := List.filter_eq_self.mpr kept
      have present : items.isEmpty = false := by
        rw [List.isEmpty_eq_false_iff]
        rintro rfl
        exact some rfl
      rw [← get?_keyFor] at found
      simp [MultiValued.elementsOf, all, present, set_self found]
    | bool | number | string | object =>
      have own := kept _ (List.mem_singleton_self _)
      simp [MultiValued.elementsOf, own]

theorem listLone_of_listed
    (listed : ∀ value ∈ fields.find? name, value = .null ∨ ∃ items, value = .array items) :
    fields.listLone name = fields := by
  unfold listLone
  cases found : fields.find? name with
  | none => rfl
  | some value => rcases listed value found with rfl | ⟨items, rfl⟩ <;> rfl

end Fields

namespace Filter

/-- Both of two filters, respelled once more, hold only where the first does. -/
theorem holds_of_both_respelled {definition : Attribute} {filter other : Filter} {element : Json}
    (holds : ((both (filter.mapPaths definition.respellPath) other).mapPaths
      definition.respellPath).holds (.element definition) element = true) :
    (filter.mapPaths definition.respellPath).holds (.element definition) element = true := by
  rw [both, mapPaths, Filter.holds, filter.respelled_again, Bool.and_eq_true] at holds
  exact holds.1

end Filter

namespace Patch

variable {patch : Patch} {type : ResourceType} {written base : Path} {found : Resolution}
  {definition : Attribute} {last : Segment} {filter : Filter} {kind : OpKind}
  {resource result : Resource}

/-- The path of a remove by value, where it is narrowed to the value and its text leads on, is read
as one through a filter that holds only where its own does. -/
theorem Addresses.narrowed_within (addressed : patch.Addresses type kind written found)
    (target : found.chain.getLast? = some definition)
    (split : (type.respell found written).split? = some (base, last))
    (given : last.filter = some filter) {value : Json} (scalar : value.isScalar = true)
    (within : value.InDocument) {narrowed : Path}
    (narrow : (type.respell found written).narrow value = some narrowed)
    {resolved : Path × ResolvedAttribute}
    (spelled : type.resolveText narrowed.render = .ok resolved) :
    resolved.2.definition = definition ∧
      ∃ narrower, resolved.1.split? = some (base, ⟨last.name, some narrower⟩) ∧
        ∀ element, narrower.holds (.element definition) element = true →
          filter.holds (.element definition) element = true := by
  obtain ⟨read, reread, -⟩ := Json.exists_reread? scalar within
  obtain ⟨schema, init, final, chain, owner, rfl, rfl, length⟩ :=
    ResourceType.exists_parts addressed.resolved target
  have ends : definition.respellSegment final = last := by
    have parts := split
    rw [type.respell_append length, Path.split?_concat] at parts
    exact congrArg Prod.snd (Option.some.inj parts)
  rw [← ends] at given
  obtain ⟨own, written, rfl⟩ := Option.map_eq_some_iff.mp given
  have plain := (ResourceType.isSpelled_of_parse addressed.parsed
    addressed.resolved).plain_ahead (Option.isSome_of_eq_some written)
  rw [type.respell_concat length plain] at split narrow
  rw [Path.split?_concat] at split
  rw [Path.narrow_concat] at narrow
  cases split
  cases narrow
  cases ResourceType.resolveText_narrowed_eq addressed.parsed addressed.resolved length plain
    scalar reread spelled
  have again : definition.respellSegment ((definition.respellSegment final).narrow read) =
      ⟨definition.name, some ((Filter.both (own.mapPaths definition.respellPath)
        (.valueEquals read)).mapPaths definition.respellPath)⟩ := by
    rw [Segment.narrow_eq, given]
    rfl
  rw [again]
  exact ⟨rfl, _, Path.split?_concat .., fun element => Filter.holds_of_both_respelled⟩

/-- A remove through a filter is refused, or it removes from the containers of its own path, and
nothing but elements of which the filter holds. -/
theorem Addresses.remove_narrower (addressed : patch.Addresses type .remove written found)
    (target : found.chain.getLast? = some definition)
    (split : (type.respell found written).split? = some (base, last))
    (given : last.filter = some filter)
    (held : ∀ payload ∈ patch.value, ∀ value ∈ payload.unwrap, value.InDocument)
    (options : PatchOptions) :
    (∃ error, ∀ resource, patch.apply type options resource = .stopped resource error) ∨
    ∃ path narrower, path.split? = some (base, ⟨last.name, some narrower⟩) ∧
      (∀ element, narrower.holds (.element definition) element = true →
        filter.holds (.element definition) element = true) ∧
      ∀ resource, patch.apply type options resource = resource.remove type path definition := by
  have applies (resource : Resource) : patch.apply type options resource =
      patch.applyAtPath type options .remove resource := addressed.apply_eq_applyAtPath ..
  simp only [applies, applyAtPath, addressed.resolveText target]
  cases rewritten : patch.removeByValueIf options.removeByValue (type.respell found written)
      definition with
  | error error => exact .inl ⟨error, fun _ => rfl⟩
  | ok removal =>
    cases removal with
    | none =>
      obtain ⟨name, _⟩ := last
      cases given
      exact .inr ⟨type.respell found written, filter, split, fun _ holds => holds, fun _ => rfl⟩
    | some removal =>
      obtain ⟨value, narrowed, scalar, ⟨payload, supplied, unwrapped⟩, narrow, rfl⟩ :=
        removeByValueIf_eq_some rewritten
      cases spelled : type.resolveText (Patch.remove narrowed.render).path with
      | error error =>
        simp only [spelled]
        exact .inl ⟨error, fun _ => rfl⟩
      | ok resolved =>
        simp only [spelled]
        obtain ⟨rfl, narrower, parted, within⟩ := addressed.narrowed_within target split given
          scalar (held payload supplied value unwrapped) narrow spelled
        exact .inr ⟨resolved.1, narrower, parted, within, fun _ => rfl⟩

/-- **A remove that matches nothing removes nothing.** Where the filter of a multi-valued
attribute, in canonical spelling, holds of no element and no container has an empty list, a remove
that succeeds lists the lone values and leaves the rest; a resource without lone values stays as it
is. -/
theorem apply_unmatched (addressed : patch.Addresses type .remove written found)
    (target : found.chain.getLast? = some definition) (multiValued : definition.multiValued = true)
    (split : (type.respell found written).split? = some (base, last))
    (given : last.filter = some filter)
    (held : ∀ payload ∈ patch.value, ∀ value ∈ payload.unwrap, value.InDocument)
    (options : PatchOptions)
    (unmatched : ∀ fields ∈ resource.holders type base,
      ∀ element ∈ (MultiValued.ofField (fields.find? last.name)).items,
        filter.holds (.element definition) element = false)
    (nonempty : ∀ fields ∈ resource.holders type base, fields.find? last.name ≠ some (.array []))
    (done : patch.apply type options resource = .done result) :
    resource.listLone type (type.respell found written) = .done result ∧
      ((∀ fields ∈ resource.holders type base, ∀ value ∈ fields.find? last.name,
        value = .null ∨ ∃ items, value = .array items) → result = resource) := by
  rcases addressed.remove_narrower target split given held options with
    ⟨error, stops⟩ | ⟨path, narrower, parted, within, removes⟩
  · rw [stops] at done
    cases congrArg Outcome.fault done
  · rw [removes] at done
    have lists : resource.listLone type (type.respell found written) = .done result := by
      rw [← Outcome.done?_eq_some_iff] at done ⊢
      rw [← done, Resource.listLone, Resource.remove]
      apply Resource.done?_changeContainers_congr split parted
      intro fields holder
      simp only [multiValued, if_true]
      rw [Fields.removeField_filter, Fields.keepElements_unmatched _ (nonempty fields holder)]
      intro element member
      have missed := unmatched fields holder element member
      simpa using mt (within element) (by simp [missed])
    refine ⟨lists, fun listed => ?_⟩
    exact Resource.eq_of_changeContainers split
      (fun fields holder => Fields.listLone_of_listed (listed fields holder)) lists

def homeMail : Resource :=
  ⟨[("emails", .array [.object [("type", .string "home"), ("value", .string "a@x")]])]⟩

theorem removeWorkMail_unmatched :
    removeWorkMail.apply sampleType {} homeMail = .done homeMail ∧
    homeMail.listLone sampleType
        ⟨none, [⟨"emails", some (.compare ⟨none, [⟨"type", none⟩]⟩ .equal (.string "work"))⟩]⟩ =
      .done homeMail := by
  have done : removeWorkMail.apply sampleType {} homeMail = .done homeMail := by decide +kernel
  have alone : homeMail.holders sampleType ⟨none, []⟩ = [homeMail.fields] := by decide +kernel
  have found : Fields.find? homeMail.fields "emails" = some (.array [
      .object [("type", .string "home"), ("value", .string "a@x")]]) := by decide +kernel
  have named := removeWorkMail_namesElement
  refine ⟨done, (apply_unmatched named.toAddresses named.target named.multiValued rfl rfl ?_ {} ?_
    ?_ done).1⟩
  · intro payload given value unwrapped
    cases given
    cases unwrapped
    trivial
  · show ∀ fields ∈ homeMail.holders sampleType ⟨none, []⟩, _
    rw [alone, List.forall_mem_singleton]
    decide +kernel
  · show ∀ fields ∈ homeMail.holders sampleType ⟨none, []⟩, fields.find? "emails" ≠ _
    simp [alone, found]

def removeWorkMails : Patch := .remove "emails[TYPE eq \"work\"]"

/-- A lone value of which the filter does not hold is listed. And where two keys differ in case
only, the filter may hold in its canonical spelling, though as it was written it does not. -/
theorem removeWorkMails_changes :
    let filter := Filter.compare ⟨none, [⟨"TYPE", none⟩]⟩ .equal (.string "work")
    let emails : Attribute := { name := "emails", type := .complex, multiValued := true, subAttributes := [
      { name := "value" }, { name := "type" }] }
    Filter.parse "TYPE eq \"work\"" = .ok filter ∧
    filter.holds (.element emails) (.object [("type", .string "home")]) = false ∧
    removeWorkMails.apply sampleType {} ⟨[("emails", .object [("type", .string "home")])]⟩ =
      .done ⟨[("emails", .array [.object [("type", .string "home")]])]⟩ ∧
    filter.holds (.element emails)
        (.object [("Type", .string "home"), ("type", .string "work")]) = false ∧
    removeWorkMails.apply sampleType {} ⟨[("emails", .array [
        .object [("Type", .string "home"), ("type", .string "work")]])]⟩ = .done ⟨[]⟩ := by
  decide +kernel

end Patch
end Scim
