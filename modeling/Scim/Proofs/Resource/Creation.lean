import Scim.Proofs.Resource.Composition
import Scim.Proofs.Resource.Holders

/-! What navigation creates. Along the steps of a path absent or null entries become objects that
hold nothing but such entries, and a second navigation, whether it may create anything or not, leads
through them to the same places, or to the same obstacle. -/
namespace Scim

namespace Json

inductive EachItem (related : Json → Json → Prop) : Json → Json → Prop where
  | alone {value result : Json} : related value result → EachItem related value result
  | items {items results : List Json} : List.Forall₂ related items results →
      EachItem related (.array items) (.array results)

/-- One entry of an object may have been created, or something within it. -/
inductive FilledAt (name : String) (creatable : Bool) (further : Json → Json → Prop) :
    Json → Json → Prop where
  | same (value : Json) : FilledAt name creatable further value value
  | created {fields : Fields} {filled : Json} : creatable = true →
      fields.find? name = none ∨ fields.find? name = some .null →
      further (.object []) filled →
      FilledAt name creatable further (.object fields)
        (.object (fields.set (fields.keyFor name) filled))
  | within {fields : Fields} {child filled : Json} : fields.find? name = some child →
      further child filled →
      FilledAt name creatable further (.object fields)
        (.object (fields.set (fields.keyFor name) filled))

/-- What creation along steps may make of a value. A step is the name of an entry, and whether it
may be created. -/
def Filled : List (String × Bool) → Json → Json → Prop
  | [] => fun value result => result = value
  | (name, creatable) :: more => FilledAt name creatable (EachItem (Filled more))

theorem Filled.refl (steps : List (String × Bool)) (value : Json) : Filled steps value value := by
  cases steps with
  | nil => rfl
  | cons step more => exact .same value

def outline : Json → Shape × List Shape
  | .array items => (.array, items.map shape)
  | value => (value.shape, [])

theorem shape_of_outline {value other : Json} (same : value.outline = other.outline) :
    value.shape = other.shape := by
  have shape (value : Json) : value.outline.1 = value.shape := by cases value <;> rfl
  rw [← shape value, ← shape other, same]

theorem listed_or_single (value : Json) :
    (∃ items, value = .array items) ∨ value.shape ≠ .array := by
  cases value with
  | array items => exact .inl ⟨items, rfl⟩
  | _ => exact .inr Shape.noConfusion

theorem all_of_shapes {test : Json → Bool}
    (respects : ∀ value other : Json, value.shape = other.shape → test value = test other)
    {items others : List Json} (same : items.map shape = others.map shape) :
    items.all test = others.all test := by
  induction items generalizing others with
  | nil =>
    cases others with
    | nil => rfl
    | cons => cases same
  | cons item rest ih =>
    cases others with
    | nil => cases same
    | cons other more =>
      obtain ⟨head, tail⟩ := List.cons.inj same
      rw [List.all_cons, List.all_cons, respects item other head, ih tail]

end Json

def ResourceType.stepsInto (segments : List (Segment × Attribute)) : List (String × Bool) :=
  segments.map fun entry => (entry.1.name, entry.2.isComplex && !entry.2.multiValued)

/-- The entries on the way to the containers behind a base: that of an extension, which may be
created, and those of the attributes, of which the complex and single-valued may be. -/
def ResourceType.steps (type : ResourceType) (base : Path) : List (String × Bool) :=
  (base.schema.bind type.extension?).toList.map (fun schema => (schema.id, true)) ++
    stepsInto (type.definitions base)

namespace Focus

mutual

theorem refine_refine (f g : Json → Focus) (focus : Focus) :
    (focus.refine f).refine g = focus.refine fun value => (f value).refine g := by
  cases focus with
  | target value => rfl
  | plain value => rfl
  | member fields key inner => simp only [refine, refine_refine f g inner]
  | elements items => simp only [refine, refineAll_refineAll f g items]

theorem refineAll_refineAll (f g : Json → Focus) (items : List Focus) :
    refineAll g (refineAll f items) = refineAll (fun value => (f value).refine g) items := by
  cases items with
  | nil => rfl
  | cons item rest =>
    simp only [refineAll, refine_refine f g item, refineAll_refineAll f g rest]

end

mutual

theorem refine_target (focus : Focus) : focus.refine .target = focus := by
  cases focus with
  | target value => rfl
  | plain value => rfl
  | member fields key inner => rw [refine, refine_target inner]
  | elements items => rw [refine, refineAll_target items]

theorem refineAll_target (items : List Focus) : refineAll .target items = items := by
  cases items with
  | nil => rfl
  | cons item rest => rw [refineAll, refine_target item, refineAll_target rest]

end

/-- One focus has the places of another, each with what is left there of its value. They lie where
they lay: a change of them makes the same of the document. -/
structure Revisits (again focus : Focus) (left : Json → Json) : Prop where
  targets : again.targets = focus.targets.map left
  traverse : ∀ change, again.traverse change = focus.traverse fun place => change (left place)

theorem Revisits.document {again focus : Focus} (revisits : again.Revisits focus id) :
    again.document = focus.document := by
  have kept := revisits.traverse some
  simp only [id, traverse_some] at kept
  exact Option.some.inj kept

theorem documents_refineAll_map (f further : Json → Focus) (items : List Json) :
    documents (refineAll further (items.map f)) =
      items.map fun item => ((f item).refine further).document := by
  induction items with
  | nil => rfl
  | cons item rest ih => simp only [List.map_cons, refineAll, documents, ih]

def KeepsOutline (way : Json → Focus) : Prop :=
  ∀ value, (way value).document.outline = value.outline

theorem keepsOutline_target : KeepsOutline .target := fun _ => rfl

/-- A way to places, and another by which the same places are found in what is left, also if
something is found and created further on. -/
structure FoundAgain (way again : Json → Focus) : Prop where
  outline : ∀ {further : Json → Focus}, KeepsOutline further →
    KeepsOutline fun value => (way value).refine further
  revisits : ∀ {further : Json → Focus}, KeepsOutline further → ∀ value,
    (again ((way value).refine further).document).Revisits (way value)
      fun place => (further place).document

namespace FoundAgain

variable {way again next nextAgain : Json → Focus}

theorem target : FoundAgain .target .target where
  outline kept := kept
  revisits _ _ := ⟨rfl, fun _ => rfl⟩

theorem targets_refine (found : FoundAgain way again) {further : Json → Focus}
    (kept : KeepsOutline further) {focus other : Focus}
    (left : other.targets = focus.targets.map fun place => ((way place).refine further).document) :
    (other.refine again).targets =
      (focus.refine way).targets.map fun place => (further place).document := by
  rw [Focus.targets_refine, Focus.targets_refine, left, List.flatMap_map, List.map_flatMap]
  have places := funext fun place => (found.revisits kept place).targets
  exact congrArg (List.flatMap · focus.targets) places

theorem andThen (first : FoundAgain way again) (second : FoundAgain next nextAgain) :
    FoundAgain (fun value => (way value).refine next)
      (fun value => (again value).refine nextAgain) where
  outline kept := by
    simp only [refine_refine]
    exact first.outline (second.outline kept)
  revisits kept value := by
    rw [refine_refine]
    have found := first.revisits (second.outline kept) value
    refine ⟨second.targets_refine kept found.targets, fun change => ?_⟩
    rw [traverse_refine, found.traverse, traverse_refine]
    have onward := funext fun place => (second.revisits kept place).traverse change
    exact congrArg (Focus.traverse · (way value)) onward

theorem keepsOutline (found : FoundAgain way again) : KeepsOutline way := by
  have kept := found.outline keepsOutline_target
  simpa only [refine_target] using kept

theorem alone (found : FoundAgain way again) (value : Json) :
    (way value).document.outline = value.outline ∧
      (again (way value).document).Revisits (way value) id := by
  have revisits := found.revisits keepsOutline_target value
  rw [refine_target] at revisits
  exact ⟨found.keepsOutline value, revisits⟩

end FoundAgain

end Focus

namespace Fields

variable {fields : Fields} {name : String}

theorem slot?_written (fields : Fields) (name : String) {create : Bool} {value : Json}
    (present : create = true → value ≠ .null) :
    (fields.set (fields.keyFor name) value).slot? name create = some value := by
  rw [slot?_eq_entrySlot, find?_written]
  cases create with
  | false => cases value <;> rfl
  | true => cases value <;> first | rfl | exact absurd rfl (present rfl)

theorem slot?_ne_null {child : Json} (slot : fields.slot? name true = some child) :
    child ≠ .null := by
  rw [slot?_create] at slot
  exact child?_ne_null slot

theorem slot?_eq_none {create again : Bool} (within : again = true → create = true)
    (absent : fields.slot? name create = none) : fields.slot? name again = none := by
  rw [slot?_eq_entrySlot] at absent ⊢
  cases again with
  | true => rwa [within rfl] at absent
  | false =>
    cases found : fields.find? name with
    | none => rfl
    | some value => cases create <;> cases value <;> simp [entrySlot, found] at absent

end Fields

namespace Focus

/-- A field that was singled out is found again, with what is in it now. -/
theorem foundAgain_descend (name : String) {create again : Bool}
    (within : again = true → create = true) :
    FoundAgain (descend name create) (descend name again) := by
  have written {fields : Fields} {child : Json} {further : Json → Focus}
      (slot : Fields.slot? fields name create = some child) (kept : KeepsOutline further) :
      descend name again (.object (Fields.set fields (Fields.keyFor fields name)
        (further child).document)) =
          .member (Fields.set fields (Fields.keyFor fields name) (further child).document)
            (Fields.keyFor fields name) (.target (further child).document) := by
    have present : again = true → (further child).document ≠ .null := by
      intro creates null
      rw [within creates] at slot
      have same := Json.shape_of_outline (kept child)
      rw [null] at same
      cases child <;> first | exact Fields.slot?_ne_null slot rfl | cases same
    simp only [descend, Fields.slot?_written fields name present, Fields.keyFor_set_keyFor]
  constructor
  case outline =>
    intro further _ value
    cases value with
    | object fields =>
      simp only [descend]
      cases Fields.slot? fields name create <;> rfl
    | _ => rfl
  case revisits =>
    intro further kept value
    cases value with
    | object fields =>
      cases slot : Fields.slot? fields name create with
      | none =>
        simp only [descend, slot, refine, document, Fields.slot?_eq_none within slot]
        exact ⟨rfl, fun _ => rfl⟩
      | some child =>
        have singled : descend name create (.object fields) =
            .member fields (Fields.keyFor fields name) (.target child) := by
          simp only [descend, slot]
        simp only [singled, refine, document, written slot kept]
        exact ⟨rfl, fun change => by simp only [traverse, Fields.set_set]⟩
    | _ => exact ⟨rfl, fun _ => rfl⟩

theorem select_single {condition : Json → Bool} {value : Json} (single : value.shape ≠ .array) :
    select condition value = selectIf condition value := by
  cases value <;> first | rfl | exact absurd rfl single

section

variable {condition : Json → Bool}
  (respects : ∀ value other : Json, value.shape = other.shape → condition value = condition other)

include respects

theorem foundAgain_selectIf : FoundAgain (selectIf condition) (selectIf condition) := by
  constructor
  case outline =>
    intro further kept value
    simp only [selectIf]
    split
    · exact kept value
    · rfl
  case revisits =>
    intro further kept value
    have still := respects _ _ (Json.shape_of_outline (kept value))
    cases holds : condition value with
    | true =>
      rw [holds] at still
      simp only [selectIf, holds, still, refine, if_true]
      exact ⟨rfl, fun _ => rfl⟩
    | false =>
      simp only [selectIf, holds, refine, document, Bool.false_eq_true, if_false]
      exact ⟨rfl, fun _ => rfl⟩

theorem foundAgain_select : FoundAgain (select condition) (select condition) := by
  have single := foundAgain_selectIf respects
  constructor
  case outline =>
    intro further kept value
    dsimp only
    rcases value.listed_or_single with ⟨items, rfl⟩ | alone
    · simp only [select, refine, document, documents_refineAll_map, Json.outline, List.map_map]
      refine congrArg _ (List.map_congr_left fun item _ => ?_)
      exact Json.shape_of_outline (single.outline kept item)
    · rw [select_single alone]
      exact single.outline kept value
  case revisits =>
    intro further kept value
    rcases value.listed_or_single with ⟨items, rfl⟩ | alone
    · simp only [select, refine, document, documents_refineAll_map]
      constructor
      · simp only [targets, targetsOf_map, List.flatMap_map, List.map_flatMap,
          (single.revisits kept _).targets]
      · intro change
        simp only [traverse, traverseAll_map, List.mapM_map, Function.comp_def,
          (single.revisits kept _).traverse]
    · have still := Json.shape_of_outline (single.outline kept value)
      rw [select_single alone, select_single (still ▸ alone)]
      exact single.revisits kept value

end

/-- An obstacle is told by the outline. -/
theorem obstacle?_of_outline (path : String) {value other : Json}
    (same : value.outline = other.outline) : obstacle? path value = obstacle? path other := by
  have shape := Json.shape_of_outline same
  cases value with
  | array items =>
    cases other with
    | array others =>
      have all : (items.all fun item => item.isObject || item.isNull) =
          others.all fun item => item.isObject || item.isNull :=
        Json.all_of_shapes (fun _ _ same => by
          rw [Json.isObject_of_shape same, Json.isNull_of_shape same]) (congrArg Prod.snd same)
      rw [obstacle?, obstacle?, all]
    | _ => cases shape
  | _ => cases other <;> first | rfl | cases shape

/-- A navigation from any places, and a later one from the same places with what the first has left
in them, which meets the same fault. -/
def Settles (steps : List (String × Bool)) (run again : Focus → Outcome PatchError Focus) : Prop :=
  ∀ focus : Focus, ∃ way wayAgain fault, FoundAgain way wayAgain ∧
    (∀ value, Json.Filled steps value (way value).document) ∧
    run focus = ⟨focus.refine way, fault⟩ ∧
    ∀ other : Focus, other.targets = (focus.targets.map fun place => (way place).document) →
      again other = ⟨other.refine wayAgain, fault⟩

theorem settles_done (steps : List (String × Bool)) : Settles steps .done .done := by
  intro focus
  refine ⟨.target, .target, none, .target, Json.Filled.refl steps, ?_, fun other _ => ?_⟩
  · rw [refine_target]; rfl
  · rw [refine_target]; rfl

theorem settles_stopped (steps : List (String × Bool)) (fault : PatchError) :
    Settles steps (.stopped · fault) (.stopped · fault) := by
  intro focus
  refine ⟨.target, .target, some fault, .target, Json.Filled.refl steps, ?_, fun other _ => ?_⟩
  · rw [refine_target]; rfl
  · rw [refine_target]; rfl

/-- A field that is singled out is there, or has been created. -/
theorem filled_descend (name : String) {create creatable : Bool}
    (allowed : create = true → creatable = true) {more : List (String × Bool)}
    {further : Json → Focus}
    (filled : ∀ value, Json.EachItem (Json.Filled more) value (further value).document)
    (value : Json) :
    Json.Filled ((name, creatable) :: more) value
      ((descend name create value).refine further).document := by
  cases value with
  | object fields =>
    simp only [descend, Fields.slot?_eq_entrySlot]
    cases found : Fields.find? fields name with
    | none =>
      cases create with
      | true => exact .created (allowed rfl) (.inl found) (filled (.object []))
      | false => exact .same _
    | some child =>
      by_cases null : child = .null ∧ create = true
      · obtain ⟨rfl, creates⟩ := null
        subst creates
        exact .created (allowed rfl) (.inr found) (filled (.object []))
      · have slot : entrySlot (some child) create = some child := by
          cases create <;> cases child <;> first | rfl | exact absurd ⟨rfl, rfl⟩ null
        rw [slot]
        exact .within found (filled child)
  | _ => exact .same _

theorem filled_parents {more : List (String × Bool)} {further : Json → Focus}
    (filled : ∀ value, Json.Filled more value (further value).document) (value : Json) :
    Json.EachItem (Json.Filled more) value ((parents value).refine further).document := by
  have single (value : Json) :
      Json.Filled more value ((selectIf Json.isObject value).refine further).document := by
    rw [selectIf]
    split
    · exact filled value
    · exact .refl more value
  rcases value.listed_or_single with ⟨items, rfl⟩ | alone
  · simp only [parents, select, refine, document, documents_refineAll_map]
    refine .items ?_
    induction items with
    | nil => exact .nil
    | cons item rest ih => exact .cons (single item) ih
  · rw [parents, select_single alone]
    exact .alone (single value)

/-- What is left to follow once a segment has been entered, in the places and in what is left in
them. -/
theorem pursue_again {create again : Bool} {path : String} {more : List (Segment × Attribute)}
    (settles : Settles (ResourceType.stepsInto more) (follow create path more)
      (follow again path more))
    {way wayAgain : Json → Focus} (found : FoundAgain way wayAgain) (focus : Focus) :
    ∃ further furtherAgain fault, FoundAgain further furtherAgain ∧
      (∀ value, Json.EachItem (Json.Filled (ResourceType.stepsInto more)) value
        (further value).document) ∧
      (focus.refine way).pursue create path more = ⟨(focus.refine way).refine further, fault⟩ ∧
      ∀ other : Focus,
        other.targets = (focus.targets.map fun place => ((way place).refine further).document) →
        (other.refine wayAgain).pursue again path more =
          ⟨(other.refine wayAgain).refine furtherAgain, fault⟩ := by
  cases more with
  | nil =>
    refine ⟨present, present, none, ?_, ?_, rfl, fun _ _ => rfl⟩
    · exact foundAgain_selectIf fun _ _ same => congrArg not (Json.isNull_of_shape same)
    · exact fun value => .alone (document_selectIf _ value)
  | cons next more =>
    cases blocked : (focus.refine way).targets.findSome? (obstacle? path) with
    | some fault =>
      refine ⟨.target, .target, some fault, .target, fun value => .alone (.refl _ value), ?_, ?_⟩
      · rw [pursue, blocked, refine_target]
        rfl
      · intro other left
        have same := found.targets_refine keepsOutline_target left
        rw [pursue, same, refine_target]
        simp only [document, List.map_id', blocked]
        rfl
    | none =>
      obtain ⟨tail, tailAgain, fault, onward, filled, ran, ranAgain⟩ :=
        settles ((focus.refine way).refine parents)
      have objects : FoundAgain parents parents :=
        foundAgain_select fun _ _ => Json.isObject_of_shape
      refine ⟨_, _, fault, objects.andThen onward, filled_parents filled, ?_, ?_⟩
      · rw [pursue, blocked]
        dsimp only
        rw [ran, refine_refine]
      · intro other left
        have kept := objects.outline onward.keepsOutline
        have reached := found.targets_refine kept left
        have unblocked : (other.refine wayAgain).targets.findSome? (obstacle? path) = none := by
          rw [reached, List.findSome?_map]
          have same : obstacle? path ∘ (fun place => ((parents place).refine tail).document) =
              obstacle? path :=
            funext fun place => obstacle?_of_outline path (kept place)
          rw [same, blocked]
        rw [pursue, unblocked]
        dsimp only
        rw [ranAgain _ (objects.targets_refine onward.keepsOutline reached), refine_refine]

/-- Following segments without filters settles what there is to create. -/
theorem settles_follow {create again : Bool} (within : again = true → create = true) (path : String)
    {segments : List (Segment × Attribute)}
    (plain : ∀ entry ∈ segments, entry.1.filter = none) :
    Settles (ResourceType.stepsInto segments) (follow create path segments)
      (follow again path segments) := by
  induction segments with
  | nil => exact settles_done []
  | cons entry more ih =>
    obtain ⟨segment, definition⟩ := entry
    obtain ⟨unfiltered, later⟩ := List.forall_mem_cons.mp plain
    have entered (create : Bool) (focus : Focus) : focus.enter create segment definition =
        focus.refine (descend segment.name
          (create && definition.isComplex && !definition.multiValued)) := by
      rw [enter, unfiltered]
    have child : FoundAgain
        (descend segment.name (create && definition.isComplex && !definition.multiValued))
        (descend segment.name (again && definition.isComplex && !definition.multiValued)) := by
      refine foundAgain_descend segment.name fun holds => ?_
      cases again with
      | true => rwa [within rfl]
      | false => cases holds
    have allowed : (create && definition.isComplex && !definition.multiValued) = true →
        (definition.isComplex && !definition.multiValued) = true := by
      rw [Bool.and_assoc, Bool.and_eq_true]
      exact And.right
    intro focus
    obtain ⟨further, furtherAgain, fault, onward, filled, ran, ranAgain⟩ :=
      pursue_again (ih later) child focus
    simp only [follow_cons, entered]
    refine ⟨_, _, fault, child.andThen onward, filled_descend segment.name allowed filled, ?_, ?_⟩
    · rw [ran, refine_refine]
    · intro other left
      rw [ranAgain other left, refine_refine]

end Focus

namespace Resource

def onward (type : ResourceType) (create : Bool) (base : Path) (home : Focus) :
    Outcome PatchError Focus :=
  if base.isRoot then .done home
  else
    match type.lookup base with
    | some found => home.follow create base.render (base.segments.zip found.chain)
    | none => .stopped home (.noAttribute base.render)

theorem containers_of_home {type : ResourceType} {create : Bool} {base : Path} {resource : Resource}
    {home : Focus} (reached : resource.home type create base.schema = .done home)
    (somewhere : home.targets ≠ []) :
    resource.containers type create base = onward type create base home := by
  have places : home.targets.isEmpty = false := List.isEmpty_eq_false_iff.mpr somewhere
  cases found : type.lookup base <;>
    simp [containers, reached, onward, Outcome.done, places, found]

theorem settles_onward (type : ResourceType) {base : Path}
    (plain : ∀ segment ∈ base.segments, segment.filter = none) {create again : Bool}
    (within : again = true → create = true) :
    Focus.Settles (ResourceType.stepsInto (type.definitions base)) (onward type create base)
      (onward type again base) := by
  intro focus
  unfold onward
  split
  · exact Focus.settles_done _ focus
  · have unfiltered := type.definitions_unfiltered plain
    unfold ResourceType.definitions at unfiltered ⊢
    cases looked : type.lookup base with
    | none => exact Focus.settles_stopped _ _ focus
    | some found =>
      rw [looked] at unfiltered
      exact Focus.settles_follow within base.render unfiltered focus

/-- A navigation comes to the places, or to the fault, that another has come to, and leaves the same
document. They are the same places: what is done at them makes the same of both. -/
structure Repeats (again first : Outcome PatchError Focus) : Prop where
  fault : again.fault = first.fault
  places : again.value.targets = first.value.targets
  document : again.value.document = first.value.document
  traverse : ∀ change, again.value.traverse change = first.value.traverse change

theorem exists_of_outline {document : Json} {resource : Resource}
    (same : document.outline = resource.document.outline) :
    ∃ created : Resource, document = created.document := by
  have shape := Json.shape_of_outline same
  cases document with
  | object fields => exact ⟨⟨fields⟩, rfl⟩
  | _ => cases shape

/-- Navigation from a home that is found again in what is left. -/
theorem saturate_of_home {type : ResourceType} {base : Path}
    (plain : ∀ segment ∈ base.segments, segment.filter = none) {resource : Resource}
    (start : Bool → Json → Focus) (found : ∀ create, Focus.FoundAgain (start true) (start create))
    (somewhere : (start true resource.document).targets ≠ [])
    (homes : ∀ (create : Bool) (created : Resource) (further : Json → Focus),
      Focus.KeepsOutline further →
      created.document = ((start true resource.document).refine further).document →
      created.home type create base.schema = .done (start create created.document))
    {steps : List (String × Bool)}
    (filled : ∀ way : Json → Focus,
      (∀ value, Json.Filled (ResourceType.stepsInto (type.definitions base)) value
        (way value).document) →
      Json.Filled steps resource.document ((start true resource.document).refine way).document)
    (home : resource.home type true base.schema = .done (start true resource.document)) :
    ∃ created : Resource,
      (resource.containers type true base).value.document = created.document ∧
      Json.Filled steps resource.document created.document ∧
      ∀ create, Repeats (created.containers type create base)
        (resource.containers type true base) := by
  have reached := containers_of_home home somewhere
  have allowed (create : Bool) : create = true → true = true := fun _ => rfl
  have settled (create : Bool) := settles_onward type plain (allowed create)
    (start true resource.document)
  obtain ⟨way, _, _, onward, within, ran, _⟩ := settled true
  obtain ⟨created, left⟩ :=
    exists_of_outline (((found true).andThen onward).alone resource.document).1
  refine ⟨created, by rw [reached, ran, ← left], left ▸ filled way within, fun create => ?_⟩
  -- for each of the two kinds of navigation the way is named anew, but it leaves the same
  obtain ⟨sameWay, back, fault, onward, _, ranSame, ranAgain⟩ := settled create
  have revisits := (((found create).andThen onward).alone resource.document).2
  have leaves : created.document = ((start true resource.document).refine sameWay).document := by
    rw [← left, ← congrArg (·.value.document) ran, ranSame]
  have placesAgain := ((found create).revisits onward.keepsOutline resource.document).targets
  rw [← leaves] at revisits placesAgain
  have homeAgain := homes create created sameWay onward.keepsOutline leaves
  have somewhereAgain : (start create created.document).targets ≠ [] := by
    rw [placesAgain, ne_eq, List.map_eq_nil_iff]
    exact somewhere
  rw [containers_of_home homeAgain somewhereAgain, ranAgain _ placesAgain, reached, ranSame]
  exact ⟨rfl, revisits.targets.trans (List.map_id _), revisits.document, revisits.traverse⟩

theorem home_extension {type : ResourceType} {urn : Option String} {schema : Schema}
    (owned : urn.bind type.extension? = some schema) {create : Bool} {resource : Resource}
    {inner : Fields} (slot : resource.fields.slot? schema.id create = some (.object inner)) :
    resource.home type create urn = .done (Focus.descend schema.id create resource.document) := by
  simp only [home, owned, slot, Focus.descend, document]

/-- An entry that is no object is left as it is, and stops every navigation. -/
theorem containers_blocked {type : ResourceType} {base : Path} {schema : Schema}
    (owned : base.schema.bind type.extension? = some schema) {resource : Resource}
    (blocked : ∀ inner, resource.fields.slot? schema.id true ≠ some (.object inner))
    (create : Bool) :
    resource.containers type create base =
      .stopped (.plain resource.document) (.invalidBase schema.id) := by
  have slot : ∃ child, resource.fields.slot? schema.id create = some child ∧ child ≠ .null ∧
      ∀ inner, child ≠ .object inner := by
    simp only [Fields.slot?_eq_entrySlot] at blocked ⊢
    cases found : resource.fields.find? schema.id with
    | none => exact absurd (by rw [found]; rfl) (blocked [])
    | some child =>
      rw [found] at blocked
      cases child with
      | null => exact absurd rfl (blocked [])
      | object inner => exact absurd rfl (blocked inner)
      | _ => exact ⟨_, by cases create <;> rfl, Json.noConfusion, fun _ => Json.noConfusion⟩
  obtain ⟨child, slot, present, unentered⟩ := slot
  have home : resource.home type create base.schema =
      .stopped (.plain resource.document) (.invalidBase schema.id) := by
    simp only [home, owned, slot]
  simp only [containers, home]
  rfl

/-- **Creating navigation saturates.** Whether it comes to the end or stops, it leaves a resource
from which navigation, creating or not, comes to the same places or the same fault and changes
nothing more; and it has created nothing but entries along the base. -/
theorem containers_saturate (type : ResourceType) {base : Path}
    (plain : ∀ segment ∈ base.segments, segment.filter = none) (resource : Resource) :
    ∃ created : Resource,
      (resource.containers type true base).value.document = created.document ∧
      Json.Filled (type.steps base) resource.document created.document ∧
      ∀ create, Repeats (created.containers type create base)
        (resource.containers type true base) := by
  cases owned : base.schema.bind type.extension? with
  | none =>
    have homes (create : Bool) (resource : Resource) :
        resource.home type create base.schema = .done (.target resource.document) := by
      simp only [home, owned]
    have steps : type.steps base = ResourceType.stepsInto (type.definitions base) := by
      simp [ResourceType.steps, owned]
    rw [steps]
    exact saturate_of_home plain (fun _ => .target) (fun _ => .target) (by simp [Focus.targets])
      (fun create created _ _ _ => homes create created) (fun way filled => filled _)
      (homes true resource)
  | some schema =>
    have steps : type.steps base =
        (schema.id, true) :: ResourceType.stepsInto (type.definitions base) := by
      simp [ResourceType.steps, owned]
    rw [steps]
    by_cases entered : ∃ inner, resource.fields.slot? schema.id true = some (.object inner)
    · obtain ⟨inner, slot⟩ := entered
      have single : Focus.descend schema.id true resource.document = .member resource.fields
          (resource.fields.keyFor schema.id) (.target (.object inner)) := by
        simp only [Focus.descend, document, slot]
      refine saturate_of_home plain (Focus.descend schema.id)
        (fun _ => Focus.foundAgain_descend schema.id fun _ => rfl) ?_ ?_ ?_
        (home_extension owned slot)
      · simp [single, Focus.targets]
      · intro create created further kept left
        obtain ⟨found, object⟩ : ∃ found : Resource, (further (.object inner)).document =
            found.document := exists_of_outline (kept (document ⟨inner⟩))
        have fields : created.fields =
            resource.fields.set (resource.fields.keyFor schema.id) found.document := by
          rw [single] at left
          rw [← object]
          exact Json.object.inj left
        apply home_extension owned
        rw [fields, Fields.slot?_written _ _ fun _ => Json.noConfusion]
        rfl
      · intro way filled
        exact Focus.filled_descend schema.id (fun _ => rfl) (fun value => .alone (filled value)) _
    · have blocked (create : Bool) := containers_blocked owned (not_exists.mp entered) create
      refine ⟨resource, by rw [blocked]; rfl, .refl _ _, fun create => ?_⟩
      rw [blocked, blocked]
      exact ⟨rfl, rfl, rfl, fun _ => rfl⟩

def circleType : ResourceType where
  core := { id := "urn:core:Circle", attributes := [
    { name := "members", type := .complex, multiValued := true, subAttributes := [
      { name := "home", type := .complex, subAttributes := [
        { name := "place", type := .complex, subAttributes := [{ name := "street" }] }] }] }] }
  extensions := []

def circlePlaces : Path := ⟨none, [⟨"members", none⟩, ⟨"home", none⟩, ⟨"place", none⟩]⟩

def circle : Resource :=
  ⟨[("members", .array [.object [("HOME", .null)], .null, .object [("home", .object [])],
    .object [("home", .bool true)]])]⟩

/-- The home of one member is created before that of another stops the navigation. -/
theorem circle_places_saturate :
    (circle.containers circleType true circlePlaces).fault =
        some (.invalidBase "members.home.place") ∧
      (circle.containers circleType true circlePlaces).value.document =
        .object [("members", .array [.object [("HOME", .object [])], .null,
          .object [("home", .object [])], .object [("home", .bool true)]])] ∧
    ∃ created : Resource,
      (circle.containers circleType true circlePlaces).value.document = created.document ∧
      Json.Filled [("members", false), ("home", true), ("place", true)] circle.document
        created.document ∧
      ∀ create, Repeats (created.containers circleType create circlePlaces)
        (circle.containers circleType true circlePlaces) :=
  ⟨by decide +kernel, by decide +kernel, containers_saturate circleType (by decide) circle⟩

end Resource
end Scim
