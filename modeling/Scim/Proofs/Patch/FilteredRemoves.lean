import Scim.Proofs.Patch.Keys
import Scim.Proofs.Patch.Repetition
import Scim.Proofs.Path.Enclosed

/-! Removes of the elements that a filter selects. What is kept are the other elements, in their
order, and removes through two filters in turn are one through either. -/
namespace Scim

def HolderEdit.keeping (keep : Json → Bool) (last : Segment) : HolderEdit :=
  ⟨fun fields => fields.keepElements last.name keep, fun fields => fields.keepElements last.name keep⟩

theorem HolderEdit.keeping_composes (first second : Json → Bool) (last : Segment) :
    HolderEdit.Composes Json.Unambiguous (keeping first last) (keeping second last)
      (keeping (fun element => first element && second element) last) := by
  have composed (fields : Fields) (clear : (Json.object fields).Unambiguous) :=
    Fields.keepElements_keepElements ((Json.unambiguous_object fields).mp clear).1 last.name first
      second
  exact ⟨composed, composed⟩

namespace Resource

/-- The recursion that removes the elements of which a condition holds. -/
theorem removeElements_eq_done_iff {type : ResourceType} (distinct : type.Distinct) {path : Path}
    {found : Resolution} (looked : type.lookup path = some found) (text : String)
    (condition : Json → Bool) (resource result : Resource) :
    resource.removeElements type (type.respell found path) text condition = .done result ↔
      resource.descend type false found.owner (type.respell found path)
        (HolderEdit.keeping fun element => !condition element) = some result :=
  changeContainers_eq_done_iff distinct looked false
    (fun _ value present => done?_changeObjects text _ value present) resource result

end Resource

namespace Patch

variable {type : ResourceType} {text condition : String} {written : Path} {found : Resolution}
  {definition : Attribute} {filter : Filter} {resource : Resource}

/-- A remove through a filter behind a path without filters keeps the elements of which the filter
does not hold. -/
theorem apply_remove_filtered (distinct : type.Distinct) (parsed : Path.parse text = .ok written)
    (plain : ∀ segment ∈ written.segments, segment.filter = none)
    (looked : type.lookup written = some found) (target : found.chain.getLast? = some definition)
    (multiValued : definition.multiValued = true) (filterParsed : Filter.parse condition = .ok filter)
    (options : PatchOptions) (clear : resource.document.Unambiguous) (result : Resource) :
    (Patch.remove (text ++ "[" ++ condition ++ "]")).apply type options resource = .done result ↔
      resource.descend type false found.owner (type.respell found written)
        (HolderEdit.keeping fun element => !filter.holds (.element definition) element) =
          some result := by
  obtain ⟨schema, init, last, chain, owner, rfl, rfl, length⟩ :=
    ResourceType.exists_parts looked target
  obtain ⟨ahead, none⟩ := List.forall_mem_append.mp plain
  obtain ⟨name, given⟩ := last
  cases List.forall_mem_singleton.mp none
  have names : (Path.mk schema (init ++ [⟨name, some filter⟩])).names =
      (Path.mk schema (init ++ [⟨name, Option.none⟩])).names := by simp [Path.names]
  have resolved : type.lookup ⟨schema, init ++ [⟨name, some filter⟩]⟩ =
      some ⟨chain ++ [definition], owner⟩ := (type.lookup_congr (by rfl) names).trans looked
  have addressed : (Patch.remove (text ++ "[" ++ condition ++ "]")).Addresses type .remove
      ⟨schema, init ++ [⟨name, some filter⟩]⟩ ⟨chain ++ [definition], owner⟩ :=
    { nonempty := by simp [Patch.remove]
      parsed := Path.parse_filtered parsed ahead filterParsed
      resolved := resolved
      known := OpKind.ofWord?_word .remove }
  have kept : (Patch.remove (text ++ "[" ++ condition ++ "]")).removeByValueIf options.removeByValue
      (type.respell ⟨chain ++ [definition], owner⟩ ⟨schema, init ++ [⟨name, some filter⟩]⟩)
      definition = .ok Option.none := removeByValueIf_remove ..
  have split (last : Segment) : (type.respell ⟨chain ++ [definition], owner⟩
      ⟨schema, init ++ [last]⟩).split? = some (⟨type.canonicalUrn owner schema,
        List.zipWith (fun segment definition => definition.respellSegment segment) init chain⟩,
          definition.respellSegment last) := by
    rw [type.respell_append length, Path.split?_concat]
  rw [addressed.apply_of_kept target kept, applyResolved, Resource.remove_eq_removeElements type
    multiValued (split ⟨name, some filter⟩) (split ⟨name, Option.none⟩) rfl rfl
    (fun element elementClear => filter.holds_respelled definition elementClear) clear]
  exact Resource.removeElements_eq_done_iff distinct looked _ _ resource result

/-- **A filtered remove keeps the complement, and two in turn are one.** Of the elements of a
multi-valued attribute a remove through a filter keeps those of which the filter does not hold, in
their order. Where removes through two filters succeed in turn, one through either succeeds, and
leaves the same resource. -/
theorem remove_filtered_and_joined (distinct : type.Distinct) (parsed : Path.parse text = .ok written)
    (plain : ∀ segment ∈ written.segments, segment.filter = none)
    (looked : type.lookup written = some found) (target : found.chain.getLast? = some definition)
    (multiValued : definition.multiValued = true) {first second : String} {left right : Filter}
    (firstParsed : Filter.parse first = .ok left) (secondParsed : Filter.parse second = .ok right)
    (options : PatchOptions) (clear : resource.document.Unambiguous) :
    (∀ result, (Patch.remove (text ++ "[" ++ first ++ "]")).apply type options resource =
        .done result ↔
      resource.descend type false found.owner (type.respell found written)
        (HolderEdit.keeping fun element => !left.holds (.element definition) element) =
          some result) ∧
    ∀ middle result,
      (Patch.remove (text ++ "[" ++ first ++ "]")).apply type options resource = .done middle →
      (Patch.remove (text ++ "[" ++ second ++ "]")).apply type options middle = .done result →
      (Patch.remove (text ++ "[" ++ ("(" ++ first ++ ") or (" ++ second ++ ")") ++ "]")).apply type
        options resource = .done result := by
  have removes {condition : String} {filter : Filter} (filterParsed : Filter.parse condition = .ok filter)
      {resource : Resource} (clear : resource.document.Unambiguous) :=
    apply_remove_filtered distinct parsed plain looked target multiValued filterParsed options clear
  refine ⟨removes firstParsed clear, fun middle result once twice => ?_⟩
  have middleClear : middle.document.Unambiguous := by
    have kept : resource.KeepsKeys type
        ((Patch.remove (text ++ "[" ++ first ++ "]")).apply type options resource).value :=
      keepsKeys_apply (by simp [Patch.remove]) clear
    rw [once] at kept
    exact kept.clear
  rw [removes firstParsed clear] at once
  rw [removes secondParsed middleClear] at twice
  rw [removes (Filter.parse_or firstParsed secondParsed) clear]
  have onWay : ∀ segment ∈ (type.respell found written).segments.dropLast, segment.filter = none := by
    intro segment member
    obtain ⟨original, among, own, _, rfl⟩ :=
      exists_of_mem_zipWith ((List.dropLast_sublist _).subset member)
    rw [Attribute.respellSegment, plain original among]
    rfl
  rw [Resource.descend_composes Json.hereditary_unambiguous (HolderEdit.keeping_composes _ _) type _ _
    _ (.inl onWay) resource middle clear once] at twice
  simpa only [Filter.holds, Bool.not_or] using twice

def threeMails : Resource :=
  ⟨[("emails", .array [.object [("type", .string "Work")], .object [("type", .string "other")],
    .object [("type", .string "home"), ("value", .string "a@x")]])]⟩

theorem threeMails_clear : threeMails.document.Unambiguous := by
  simp only [threeMails, Resource.document, Json.Unambiguous, Json.itemsUnambiguous,
    Json.fieldsUnambiguous, Fields.Distinct, Fields.keys]
  decide

theorem threeMails_joined :
    (Patch.remove ("Emails" ++ "[" ++ "type eq \"work\"" ++ "]")).apply sampleType {} threeMails =
      .done ⟨[("emails", .array [.object [("type", .string "other")],
        .object [("type", .string "home"), ("value", .string "a@x")]])]⟩ ∧
    (Patch.remove ("Emails" ++ "[" ++ ("(" ++ "type eq \"work\"" ++ ") or (" ++ "value pr" ++ ")") ++
        "]")).apply sampleType {} threeMails =
      .done ⟨[("emails", .array [.object [("type", .string "other")]])]⟩ := by
  have once : (Patch.remove ("Emails" ++ "[" ++ "type eq \"work\"" ++ "]")).apply sampleType {}
      threeMails = .done ⟨[("emails", .array [.object [("type", .string "other")],
        .object [("type", .string "home"), ("value", .string "a@x")]])]⟩ := by decide +kernel
  have twice : (Patch.remove ("Emails" ++ "[" ++ "value pr" ++ "]")).apply sampleType {}
      ⟨[("emails", .array [.object [("type", .string "other")],
        .object [("type", .string "home"), ("value", .string "a@x")]])]⟩ =
      .done ⟨[("emails", .array [.object [("type", .string "other")]])]⟩ := by decide +kernel
  have parsed : Path.parse "Emails" = .ok ⟨none, [⟨"Emails", none⟩]⟩ := by decide +kernel
  have ofWork : Filter.parse "type eq \"work\"" =
      .ok (.compare ⟨none, [⟨"type", none⟩]⟩ .equal (.string "work")) := by decide +kernel
  have ofValue : Filter.parse "value pr" = .ok (.compare ⟨none, [⟨"value", none⟩]⟩ .present .null) := by
    decide +kernel
  exact ⟨once, (remove_filtered_and_joined sampleType_distinct parsed (by decide) rfl rfl rfl ofWork
    ofValue {} threeMails_clear).2 _ _ once twice⟩

end Patch
end Scim
