import Scim.Proofs.Resource.Parts

/-! What was changed at the places of a document, read from its root. Navigation that singled out
the places by names has left a trail: under the same names, in any case, the changed document leads
to what the places now hold. -/
namespace Scim

namespace Json

/-- Names lead from a value to another, through objects and the items of arrays. -/
def Leads : List String → Json → Json → Prop
  | [], value, reached => reached = value
  | name :: more, value, reached => ∃ child ∈ value.children name, Leads more child reached

theorem mem_itemChildren {name : String} {items : List Json} {item child : Json}
    (member : item ∈ items) (within : child ∈ item.children name) :
    child ∈ itemChildren name items := by
  induction items with
  | nil => cases member
  | cons first rest ih =>
    rw [itemChildren]
    rcases List.mem_cons.mp member with rfl | later
    · exact List.mem_append_left _ within
    · exact List.mem_append_right _ (ih later)

theorem Leads.of_item {names : List String} {items : List Json} {item reached : Json}
    (leads : Leads names item reached) (some : names ≠ []) (member : item ∈ items) :
    Leads names (.array items) reached := by
  cases names with
  | nil => exact absurd rfl some
  | cons name more =>
    obtain ⟨child, within, onward⟩ := leads
    exact ⟨child, mem_itemChildren member within, onward⟩

theorem Leads.of_find? {fields : Fields} {name : String} {names : List String}
    {child reached : Json} (leads : Leads names child reached)
    (held : fields.find? name = some child) : Leads (name :: names) (.object fields) reached :=
  ⟨child, by rw [children, held]; exact List.mem_cons_self, leads⟩

theorem Leads.mem_reached {names : List String} {value reached : Json}
    (leads : Leads names value reached) {values : List Json} (member : value ∈ values) :
    reached ∈ names.foldl (fun reached name => reached.flatMap (children name)) values := by
  induction names generalizing value values with
  | nil =>
    cases leads
    exact member
  | cons name more ih =>
    obtain ⟨child, within, onward⟩ := leads
    exact ih onward (List.mem_flatMap.mpr ⟨value, member, within⟩)

end Json

namespace Fields

variable {fields : Fields}

theorem keyFor_of_not_mem {name : String} (absent : fields.keyFor name ∉ fields.keys) :
    fields.key? name = none := by
  cases spelled : fields.key? name with
  | none => rfl
  | some key =>
    rw [keyFor, spelled, Option.getD_some] at absent
    exact absurd (key?_mem spelled) absent

theorem distinct_set_keyFor (distinct : fields.Distinct) (name : String) (value : Json) :
    (fields.set (fields.keyFor name) value).Distinct := by
  rw [Distinct, keys_set]
  split
  next => exact distinct
  next absent =>
    have missing := keyFor_of_not_mem absent
    have own : fields.keyFor name = name := by rw [keyFor, missing, Option.getD_none]
    refine List.pairwise_append.mpr ⟨distinct, List.pairwise_singleton .., ?_⟩
    intro key member other single same
    rw [List.mem_singleton.mp single, own] at same
    have spelled : fields.keys.find? (fun key => decide (Caseless key name)) = none := by
      rw [← key?_of_distinct distinct, missing]
    exact List.find?_eq_none.mp spelled key member (decide_eq_true same)

theorem find?_of_key {key : String} {value : Json} (held : fields.get? key = some value) :
    fields.find? key = some value := by
  have member : key ∈ fields.keys := by
    by_contra absent
    rw [(get?_eq_none_iff fields key).mpr absent] at held
    cases held
  rw [find?, key?, if_pos member]
  exact held

/-- What is written under a name is found under it, in any case. -/
theorem find?_set_keyFor (distinct : fields.Distinct) {name other : String}
    (same : Caseless other name) (value : Json) :
    (fields.set (fields.keyFor name) value).find? other = some value := by
  have key : Caseless other (fields.keyFor name) := same.trans (keyFor_caseless fields name).symm
  rw [find?_congr (distinct_set_keyFor distinct name value) key]
  apply find?_of_key
  rw [get?_set, if_pos rfl]

end Fields

theorem exists_mem_of_mapM {α β : Type} {f : α → Option β} {items : List α}
    {results : List β} (mapped : items.mapM f = some results) {item : α} (member : item ∈ items) :
    ∃ result ∈ results, f item = some result := by
  induction items generalizing results with
  | nil => cases member
  | cons first rest ih =>
    simp only [List.mapM_cons, Option.bind_eq_bind, Option.pure_def, Option.bind_eq_some_iff,
      Option.some.injEq] at mapped
    obtain ⟨head, headMapped, tail, tailMapped, rfl⟩ := mapped
    rcases List.mem_cons.mp member with rfl | later
    · exact ⟨head, List.mem_cons_self, headMapped⟩
    · obtain ⟨result, among, same⟩ := ih tailMapped later
      exact ⟨result, List.mem_cons_of_mem _ among, same⟩

namespace Focus

/-- What a change makes of the places is read under the names from the changed document. Where the
places are items of an array, at least one more name is needed to lead into them. -/
def ReadUnder (names : List String) (focus : Focus) : Prop :=
  ∀ (change : Json → Option Json) (document place changed : Json),
    focus.traverse change = some document → place ∈ focus.targets → change place = some changed →
    ∀ (more : List String) (reached : Json), more ≠ [] → Json.Leads more changed reached →
      Json.Leads (names ++ more) document reached

theorem readUnder_target (value : Json) : (target value).ReadUnder [] := by
  intro change document place changed traversed member made more reached _ leads
  rw [List.mem_singleton.mp member] at made
  have same : some document = some changed := traversed.symm.trans made
  cases same
  exact leads

theorem readUnder_of_empty {focus : Focus} (empty : focus.targets = []) (names : List String) :
    focus.ReadUnder names := by
  intro change document place changed traversed member
  rw [empty] at member
  cases member

/-- Trails are joined: places within places are read under the names of both. -/
theorem ReadUnder.refine {focus : Focus} {names further : List String} {f : Json → Focus}
    (outer : focus.ReadUnder names)
    (inner : ∀ value ∈ focus.targets, (f value).ReadUnder further) :
    (focus.refine f).ReadUnder (names ++ further) := by
  intro change document place changed traversed member made more reached some leads
  rw [targets_refine] at member
  obtain ⟨value, among, within⟩ := List.mem_flatMap.mp member
  rw [traverse_refine] at traversed
  obtain ⟨inside, changes⟩ := exists_changed traversed among
  have onward := inner value among change inside place changed changes within made more reached
    some leads
  rw [List.append_assoc]
  exact outer _ document value inside traversed among changes (further ++ more) reached
    (List.append_ne_nil_of_right_ne_nil _ some) onward

theorem readUnder_selectIf (condition : Json → Bool) (value : Json) :
    (selectIf condition value).ReadUnder [] := by
  rw [selectIf]
  split
  · exact readUnder_target value
  · exact readUnder_of_empty rfl []

theorem targetsOf_map (f : Json → Focus) (items : List Json) :
    targetsOf (items.map f) = items.flatMap fun item => (f item).targets := by
  induction items with
  | nil => rfl
  | cons item rest ih => rw [List.map_cons, targetsOf, ih, List.flatMap_cons]

theorem readUnder_select (condition : Json → Bool) (value : Json) :
    (select condition value).ReadUnder [] := by
  cases value with
  | array items =>
    intro change document place changed traversed member made more reached some leads
    rw [traverse_select_array] at traversed
    obtain ⟨results, mapped, rfl⟩ := Option.map_eq_some_iff.mp traversed
    rw [select, targets, targetsOf_map] at member
    obtain ⟨item, among, within⟩ := List.mem_flatMap.mp member
    obtain ⟨result, held, same⟩ := exists_mem_of_mapM mapped among
    rw [selectIf] at within
    split at within
    next holds =>
      rw [List.mem_singleton.mp within] at made
      rw [if_pos holds, made] at same
      cases same
      exact leads.of_item some held
    next => cases within
  | _ => exact readUnder_selectIf condition _

/-- A field is read under its name in any case. -/
theorem readUnder_descend {name spelled : String} (same : Caseless spelled name) (create : Bool)
    {value : Json} (clear : value.Unambiguous) : (descend name create value).ReadUnder [spelled] := by
  cases value with
  | object fields =>
    rw [descend]
    cases Fields.slot? fields name create with
    | none => exact readUnder_of_empty rfl _
    | some inner =>
      intro change document place changed traversed member made more reached _ leads
      obtain ⟨value, changes, rfl⟩ := Option.map_eq_some_iff.mp traversed
      rw [List.mem_singleton.mp member] at made
      have equal : some value = some changed := changes.symm.trans made
      cases equal
      have distinct := ((Json.unambiguous_object fields).mp clear).1
      exact leads.of_find? (Fields.find?_set_keyFor distinct same changed)
  | _ => exact readUnder_of_empty rfl _

/-- Following unfiltered segments leaves a trail under their names in any case. -/
theorem ReadUnder.follow {create : Bool} {path : String} {segments : List (Segment × Attribute)}
    (plain : ∀ step ∈ segments, step.1.filter = none) {spelled : List String}
    (same : List.Forall₂ Caseless spelled (segments.map (·.1.name))) {focus : Focus}
    {names : List String} (trail : focus.ReadUnder names) (clear : focus.Clear)
    (passed : (focus.follow create path segments).fault = none) :
    (focus.follow create path segments).value.ReadUnder (names ++ spelled) := by
  induction segments generalizing focus names spelled with
  | nil =>
    cases same
    rw [List.append_nil]
    exact trail
  | cons first more ih =>
    obtain ⟨segment, definition⟩ := first
    obtain ⟨name, others, sameName, sameOthers, rfl⟩ := List.forall₂_cons_right_iff.mp same
    have entered : focus.enter create segment definition = focus.refine (descend segment.name
        (create && definition.isComplex && !definition.multiValued)) := by
      rw [enter, plain _ List.mem_cons_self]
    have reached := trail.refine fun value member => readUnder_descend sameName
      (create && definition.isComplex && !definition.multiValued) (clear value member)
    have within := clear_enter clear create segment definition
    rw [follow_cons] at passed ⊢
    rw [← entered] at reached
    cases more with
    | nil =>
      cases sameOthers
      have ends := reached.refine fun value _ => readUnder_selectIf (fun value => !value.isNull) value
      rw [List.append_nil] at ends
      exact ends
    | cons next rest =>
      rw [pursue] at passed ⊢
      split at passed
      next => cases passed
      next unblocked =>
        have onward := reached.refine fun value _ => readUnder_select Json.isObject value
        rw [List.append_nil] at onward
        have tail := ih (fun step member => plain step (List.mem_cons_of_mem _ member)) sameOthers
          onward (clear_refine within (clear_select _)) passed
        rw [List.append_assoc] at tail
        exact tail

end Focus

namespace Resource

/-- From the top no name leads home, and the URN leads to an extension. -/
theorem readUnder_home {type : ResourceType} {urn : Option String} {spelled : List String}
    (same : List.Forall₂ Caseless spelled ((urn.bind type.extension?).toList.map (·.id)))
    (create : Bool) {resource : Resource} (clear : resource.document.Unambiguous) :
    (resource.home type create urn).value.ReadUnder spelled := by
  simp only [home]
  cases extension : urn.bind type.extension? with
  | none =>
    rw [extension] at same
    cases same
    exact Focus.readUnder_target _
  | some schema =>
    rw [extension] at same
    obtain ⟨name, _, sameName, none, rfl⟩ := List.forall₂_cons_right_iff.mp same
    cases none
    have inner := Focus.readUnder_descend sameName create clear
    simp only [Focus.descend, document] at inner
    dsimp only
    split
    next fields slot =>
      rw [slot] at inner
      exact inner
    next => exact Focus.readUnder_of_empty rfl _
    next => exact Focus.readUnder_of_empty rfl _
    next => exact Focus.readUnder_of_empty rfl _

/-- The containers of an attribute are read under the names of its base. -/
theorem readUnder_containers {type : ResourceType} {base : Path}
    (plain : ∀ segment ∈ base.segments, segment.filter = none) {home spelled : List String}
    (sameHome : List.Forall₂ Caseless home ((base.schema.bind type.extension?).toList.map (·.id)))
    (same : List.Forall₂ Caseless spelled base.names) {create : Bool} {resource : Resource}
    (clear : resource.document.Unambiguous)
    (passed : (resource.containers type create base).fault = none) :
    (resource.containers type create base).value.ReadUnder (home ++ spelled) := by
  have fromHome := readUnder_home sameHome create clear
  unfold containers at passed ⊢
  dsimp only at passed ⊢
  split
  next ended =>
    rw [if_pos ended] at passed
    cases empty : (resource.home type create base.schema).value.targets with
    | nil => exact Focus.readUnder_of_empty empty _
    | cons place more =>
      have root : base.segments = [] := by
        simpa [passed, empty, Path.isRoot] using ended
      rw [Path.names, root] at same
      cases same
      rw [List.append_nil]
      exact fromHome
  next onward =>
    rw [if_neg onward] at passed
    cases looked : type.lookup base with
    | none =>
      rw [looked] at passed
      cases passed
    | some found =>
      rw [looked] at passed
      have length := ResourceType.chain_length looked
      have named : (base.segments.zip found.chain).map (·.1.name) = base.names := by
        have segments := List.map_fst_zip (Nat.le_of_eq length.symm)
        rw [Path.names, ← congrArg (List.map Segment.name) segments, List.map_map]
        rfl
      exact fromHome.follow (fun step member => plain _ (List.of_mem_zip member).1) (named ▸ same)
        (clear_home type create base.schema clear) passed

end Resource
end Scim
