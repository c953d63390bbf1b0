import Scim.Proofs.Resource.Descent
import Scim.Proofs.Resource.Keys

/-! Changes at the end of the same segments, made in turn. Where what they make of the places there is
one change, so is what they make of the value that the segments start from, although the second
finds its way through what the first has made. -/
namespace Scim

/-- A property of values that goes over to their parts. -/
structure Json.Hereditary (good : Json → Prop) : Prop where
  field : ∀ {fields : Fields} {key : String} {value : Json},
    good (.object fields) → fields.get? key = some value → good value
  item : ∀ {items : List Json} {item : Json}, good (.array items) → item ∈ items → good item
  empty : good (.object [])

theorem Json.hereditary_true : Hereditary fun _ => True :=
  ⟨fun _ _ => trivial, fun _ _ => trivial, trivial⟩

theorem Json.hereditary_unambiguous : Hereditary Unambiguous where
  field := Unambiguous.of_get?
  item clear member := (unambiguous_array _).mp clear _ member
  empty := by simp [Fields.Distinct, Fields.keys]

/-- What the second change makes of the outcome of the first is what both make at once. -/
def Composes {α : Type} (good : α → Prop) (first second both : α → Option α) : Prop :=
  ∀ value middle, good value → first value = some middle → second middle = both value

theorem Composes.mapM {α : Type} {good : α → Prop} {first second both : α → Option α}
    (composes : Composes good first second both) {items results : List α}
    (all : ∀ item ∈ items, good item) (mapped : items.mapM first = some results) :
    results.mapM second = items.mapM both := by
  induction items generalizing results with
  | nil =>
    cases mapped
    rfl
  | cons item rest ih =>
    obtain ⟨here, later⟩ := List.forall_mem_cons.mp all
    simp only [List.mapM_cons, Option.bind_eq_bind, Option.pure_def, Option.bind_eq_some_iff,
      Option.some.injEq] at mapped
    obtain ⟨head, headMapped, tail, tailMapped, rfl⟩ := mapped
    rw [List.mapM_cons, List.mapM_cons, composes item head here headMapped, ih later tailMapped]

namespace Json

inductive Shape where
  | null
  | scalar
  | array
  | object

def shape : Json → Shape
  | .null => .null
  | .bool _ | .number _ | .string _ => .scalar
  | .array _ => .array
  | .object _ => .object

def fields? : Json → Option Fields
  | .object fields => some fields
  | _ => none

theorem isNull_of_shape {value other : Json} (same : value.shape = other.shape) :
    value.isNull = other.isNull := by
  cases value <;> cases other <;> first | rfl | cases same

theorem isObject_of_shape {value other : Json} (same : value.shape = other.shape) :
    value.isObject = other.isObject := by
  cases value <;> cases other <;> first | rfl | cases same

/-- No value is turned into one of another shape. -/
def KeepsShape (change : Json → Option Json) : Prop :=
  ∀ value result, change value = some result → result.shape = value.shape

namespace KeepsShape

variable {change : Json → Option Json}

theorem object (kept : KeepsShape change) {fields : Fields} {result : Json}
    (ran : change (.object fields) = some result) : ∃ changed, result = .object changed := by
  have same := kept _ _ ran
  cases result with
  | object changed => exact ⟨changed, rfl⟩
  | _ => cases same

theorem ne_null (kept : KeepsShape change) {value result : Json} (present : value ≠ .null)
    (ran : change value = some result) : result ≠ .null := by
  rintro rfl
  have same := kept _ _ ran
  cases value <;> first | exact present rfl | cases same

theorem onObjects (kept : KeepsShape change) (fields : Fields) :
    change (.object fields) = ((change (.object fields)).bind fields?).map .object := by
  cases ran : change (.object fields) with
  | none => rfl
  | some result =>
    obtain ⟨changed, rfl⟩ := kept.object ran
    rfl

theorem bind {second : Json → Option Json} (kept : KeepsShape change) (keptSecond : KeepsShape second) :
    KeepsShape fun value => (change value).bind second := by
  intro value result ran
  obtain ⟨middle, went, further⟩ := Option.bind_eq_some_iff.mp ran
  exact (keptSecond middle result further).trans (kept value middle went)

/-- Items that are changed one by one pass the tests of shapes that they passed before. -/
theorem all_of_mapM (kept : KeepsShape change) {test : Json → Bool}
    (respects : ∀ value other : Json, value.shape = other.shape → test value = test other)
    {items results : List Json} (mapped : items.mapM change = some results) :
    results.all test = items.all test := by
  induction items generalizing results with
  | nil =>
    cases mapped
    rfl
  | cons item rest ih =>
    simp only [List.mapM_cons, Option.bind_eq_bind, Option.pure_def, Option.bind_eq_some_iff,
      Option.some.injEq] at mapped
    obtain ⟨head, headMapped, tail, tailMapped, rfl⟩ := mapped
    rw [List.all_cons, List.all_cons, respects head item (kept item head headMapped), ih tailMapped]

end KeepsShape

variable {good : Json → Prop}

section

variable {first second both firstItem secondItem bothItem : Fields → Option Fields}

theorem throughItem_composes
    (composes : Composes (fun fields => good (.object fields)) first second both) :
    Composes good (throughItem first) (throughItem second) (throughItem both) := by
  intro item middle here ran
  cases item with
  | object fields =>
    obtain ⟨changed, edited, rfl⟩ := Option.map_eq_some_iff.mp ran
    rw [throughItem, throughItem, composes fields changed here edited]
  | null =>
    cases ran
    rfl
  | _ => cases ran

theorem through_composes (hereditary : Hereditary good)
    (inObject : Composes (fun fields => good (.object fields)) first second both)
    (inItem : Composes (fun fields => good (.object fields)) firstItem secondItem bothItem) :
    Composes good (through first firstItem) (through second secondItem)
      (through both bothItem) := by
  intro value middle here ran
  cases value with
  | object fields =>
    obtain ⟨changed, edited, rfl⟩ := Option.map_eq_some_iff.mp ran
    rw [through, through, inObject fields changed here edited]
  | array items =>
    obtain ⟨changed, mapped, rfl⟩ := Option.map_eq_some_iff.mp ran
    have composed := (throughItem_composes inItem).mapM
      (fun _ member => hereditary.item here member) mapped
    rw [through, through, composed]
  | null =>
    cases ran
    rfl
  | _ => cases ran

end

theorem keepsShape_through (inObject inItem : Fields → Option Fields) :
    KeepsShape (through inObject inItem) := by
  intro value result ran
  cases value with
  | object fields =>
    obtain ⟨changed, _, rfl⟩ := Option.map_eq_some_iff.mp ran
    rfl
  | array items =>
    obtain ⟨changed, _, rfl⟩ := Option.map_eq_some_iff.mp ran
    rfl
  | null =>
    cases ran
    rfl
  | _ => cases ran

end Json

theorem Composes.onObjects {good : Json → Prop} {first second both : Json → Option Json}
    (composes : Composes good first second both) :
    Composes (fun fields => good (.object fields))
      (fun fields => (first (.object fields)).bind Json.fields?)
      (fun fields => (second (.object fields)).bind Json.fields?)
      fun fields => (both (.object fields)).bind Json.fields? := by
  intro fields middle here ran
  obtain ⟨value, changed, object⟩ := Option.bind_eq_some_iff.mp ran
  cases value <;> cases object
  dsimp only
  rw [composes _ _ here changed]

namespace Fields

theorem child?_ne_null {fields : Fields} {name : String} {create : Bool} {child : Json}
    (found : fields.child? name create = some child) : child ≠ .null := by
  rintro rfl
  unfold child? at found
  split at found
  · split at found <;> cases found
  · split at found <;> cases found
  next absent => exact absent found

/-- What is written where a child was taken is the child from then on. -/
theorem child?_written (fields : Fields) (name : String) (create : Bool) {child : Json}
    (present : child ≠ .null) :
    (fields.set (fields.keyFor name) child).child? name create = some child := by
  rw [child?, find?_written]
  cases child with
  | null => exact absurd rfl present
  | _ => rfl

/-- A child that is not even created is not there. -/
theorem child?_keep_eq_none {fields : Fields} {name : String} {create : Bool}
    (absent : fields.child? name create = none) : fields.child? name false = none := by
  unfold child? at absent ⊢
  split at absent
  · rfl
  · rfl
  next found => cases fields.find? name <;> simp_all

end Fields

theorem Json.Hereditary.child {good : Json → Prop} (hereditary : Hereditary good) {fields : Fields}
    {name : String} {create : Bool} {child : Json} (here : good (.object fields))
    (found : fields.child? name create = some child) : good child := by
  unfold Fields.child? at found
  split at found
  · split at found
    · cases found
      exact hereditary.empty
    · cases found
  · split at found
    · cases found
      exact hereditary.empty
    · cases found
  · rw [← Fields.get?_keyFor] at found
    exact hereditary.field here found

section

open Json

variable {good : Json → Prop} {first second both : Json → Option Json} {condition : Json → Bool}

def selecting (condition : Json → Bool) (change : Json → Option Json) (value : Json) :
    Option Json :=
  if condition value then change value else some value

theorem Json.KeepsShape.selecting (kept : KeepsShape first) (condition : Json → Bool) :
    KeepsShape (selecting condition first) := by
  intro value result ran
  rw [Scim.selecting] at ran
  split at ran
  · exact kept value result ran
  · cases ran
    rfl

/-- Of a value that was changed the condition holds still, or it may hold no more, which is no loss
where the second change adds nothing to the first. -/
theorem selecting_composes (composes : Composes good first second both)
    (settled : (∀ value middle, first value = some middle → condition middle = condition value) ∨
      first = both) :
    Composes good (selecting condition first) (selecting condition second)
      (selecting condition both) := by
  intro value middle here ran
  by_cases holds : condition value = true
  · have changed : first value = some middle := by rwa [selecting, if_pos holds] at ran
    have composed := composes value middle here changed
    rw [selecting, selecting, if_pos holds, composed]
    rcases settled with kept | rfl
    · rw [kept value middle changed, if_pos holds]
    · rw [changed, ite_self]
  · have kept : middle = value := by
      rw [selecting, if_neg holds] at ran
      exact (Option.some.inj ran).symm
    rw [kept, selecting, selecting, if_neg holds, if_neg holds]

theorem traverse_select_single {value : Json} (single : ∀ items, value ≠ .array items)
    (change : Json → Option Json) :
    (Focus.select condition value).traverse change = selecting condition change value := by
  cases value with
  | array items => exact absurd rfl (single items)
  | _ => exact Focus.traverse_selectIf ..

theorem traverse_select_items (change : Json → Option Json) (items : List Json) :
    (Focus.select condition (.array items)).traverse change =
      (items.mapM (selecting condition change)).map .array :=
  Focus.traverse_select_array ..

theorem Json.KeepsShape.select (kept : KeepsShape first) (condition : Json → Bool) :
    KeepsShape fun value => (Focus.select condition value).traverse first := by
  intro value result ran
  dsimp only at ran
  cases value with
  | array items =>
    rw [traverse_select_items] at ran
    obtain ⟨changed, _, rfl⟩ := Option.map_eq_some_iff.mp ran
    rfl
  | _ =>
    rw [traverse_select_single (by simp)] at ran
    exact kept.selecting condition _ _ ran

/-- The second change goes on with no elements but those of the first. -/
theorem select_composes (hereditary : Hereditary good) (composes : Composes good first second both)
    (kept : KeepsShape first)
    (settled : (∀ value middle, first value = some middle → condition middle = condition value) ∨
      first = both) :
    Composes good (fun value => (Focus.select condition value).traverse first)
      (fun value => (Focus.select condition value).traverse second)
      (fun value => (Focus.select condition value).traverse both) := by
  have selected := selecting_composes composes settled
  intro value middle here ran
  have shape := kept.select condition value middle ran
  dsimp only at ran ⊢
  by_cases listed : ∃ items, value = .array items
  · obtain ⟨items, rfl⟩ := listed
    rw [traverse_select_items] at ran ⊢
    obtain ⟨changed, mapped, rfl⟩ := Option.map_eq_some_iff.mp ran
    rw [traverse_select_items, selected.mapM (fun _ member => hereditary.item here member) mapped]
  · have single : ∀ items, value ≠ .array items := fun items same => listed ⟨items, same⟩
    have still : ∀ items, middle ≠ .array items := by
      rintro items rfl
      cases value with
      | array items => exact single items rfl
      | _ => cases shape
    rw [traverse_select_single single] at ran ⊢
    rw [traverse_select_single still]
    exact selected value middle here ran

namespace Segment

variable {segment : Segment} {definition : Attribute}

theorem among_unfiltered (given : segment.filter = none) (definition : Attribute)
    (go : Json → Option Json) : segment.among definition go = go := by
  funext value
  simp only [among, given]

theorem among_filtered {filter : Filter} (given : segment.filter = some filter)
    (definition : Attribute) (go : Json → Option Json) :
    segment.among definition go = fun value =>
      (Focus.select (filter.holds (.element definition)) value).traverse go := by
  funext value
  cases value with
  | array items =>
    rw [traverse_select_items]
    simp only [among, given]
    rfl
  | _ =>
    rw [traverse_select_single (by simp)]
    simp only [among, given, selecting]

theorem keepsShape_among (kept : KeepsShape first) (segment : Segment) (definition : Attribute) :
    KeepsShape (segment.among definition first) := by
  cases given : segment.filter with
  | none =>
    rw [among_unfiltered given]
    exact kept
  | some filter =>
    rw [among_filtered given]
    exact kept.select _

/-- Filters on the way are asked again by the second change. -/
theorem among_composes (hereditary : Hereditary good) (composes : Composes good first second both)
    (kept : KeepsShape first) (segment : Segment) (definition : Attribute)
    (alone : segment.filter = none ∨ first = both) :
    Composes good (segment.among definition first) (segment.among definition second)
      (segment.among definition both) := by
  cases given : segment.filter with
  | none =>
    simp only [among_unfiltered given]
    exact composes
  | some filter =>
    simp only [among_filtered given]
    exact select_composes hereditary composes kept (.inr (alone.resolve_left (by simp [given])))

end Segment

namespace Focus

theorem present_composes (composes : Composes good first second both) (kept : KeepsShape first) :
    Composes good (fun value => (present value).traverse first)
      (fun value => (present value).traverse second) (fun value => (present value).traverse both) := by
  simp only [present, traverse_selectIf]
  exact selecting_composes composes
    (.inl fun value middle ran => congrArg not (isNull_of_shape (kept value middle ran)))

theorem keepsShape_present (kept : KeepsShape first) :
    KeepsShape fun value => (present value).traverse first := by
  simp only [present, traverse_selectIf]
  exact kept.selecting _

/-- What could be passed can be passed again. -/
theorem obstacle?_of_traverse_parents (kept : KeepsShape first) {path : String} {value middle : Json}
    (passable : obstacle? path value = none)
    (ran : (parents value).traverse first = some middle) (text : String) :
    obstacle? text middle = none := by
  have shape := (kept.select Json.isObject) value middle ran
  cases value with
  | array items =>
    rw [parents, traverse_select_items] at ran
    obtain ⟨results, mapped, rfl⟩ := Option.map_eq_some_iff.mp ran
    have all : (items.all fun item => item.isObject || item.isNull) = true := by
      by_contra blocked
      rw [obstacle?, if_neg blocked] at passable
      cases passable
    have still : (results.all fun item => item.isObject || item.isNull) = true := by
      rw [(kept.selecting Json.isObject).all_of_mapM (fun _ _ same => by
        rw [isObject_of_shape same, isNull_of_shape same]) mapped]
      exact all
    rw [obstacle?, if_pos still]
  | object | null =>
    cases middle <;> first | rfl | cases shape
  | _ => cases passable

theorem passing_composes (hereditary : Hereditary good) (composes : Composes good first second both)
    (kept : KeepsShape first) (path text : String) :
    Composes good (passing path first) (passing text second) (passing path both) := by
  have still (value middle : Json) (ran : first value = some middle) :
      middle.isObject = value.isObject :=
    isObject_of_shape (kept value middle ran)
  have within := select_composes hereditary composes kept (.inl still)
  intro value middle here ran
  unfold passing at ran ⊢
  cases blocked : obstacle? path value with
  | some fault => simp [blocked] at ran
  | none =>
    simp only [blocked, Option.isSome_none, Bool.false_eq_true, if_false] at ran ⊢
    rw [obstacle?_of_traverse_parents kept blocked ran]
    exact within value middle here ran

theorem keepsShape_passing (kept : KeepsShape first) (path : String) :
    KeepsShape (passing path first) := by
  intro value result ran
  unfold passing at ran
  split at ran
  · cases ran
  · exact kept.select Json.isObject value result ran

/-- One segment further, where a child that the first change has written is there for the second. -/
theorem entering_composes (hereditary : Hereditary good) (composes : Composes good first second both)
    (kept : KeepsShape first) {create again : Bool} (within : again = true → create = true)
    (segment : Segment) (definition : Attribute) (alone : segment.filter = none ∨ first = both)
    (passes : first .null = some .null) (passesSecond : second .null = some .null)
    (passesBoth : both .null = some .null) :
    Composes good (entering create segment definition first)
      (entering again segment definition second) (entering create segment definition both) := by
  have among := Segment.among_composes hereditary composes kept segment definition alone
  have shape := Segment.keepsShape_among kept segment definition
  intro value middle here ran
  cases value with
  | object fields =>
    rw [entering_object passes] at ran
    rw [entering_object passesBoth]
    cases found : Fields.child? fields segment.name
        (create && definition.isComplex && !definition.multiValued) with
    | none =>
      simp only [found] at ran ⊢
      cases ran
      have absent : Fields.child? fields segment.name
          (again && definition.isComplex && !definition.multiValued) = none := by
        cases again with
        | true => rwa [within rfl] at found
        | false => exact Fields.child?_keep_eq_none found
      rw [entering_object passesSecond, absent]
    | some child =>
      simp only [found] at ran ⊢
      obtain ⟨changed, went, rfl⟩ := Option.map_eq_some_iff.mp ran
      have present := shape.ne_null (Fields.child?_ne_null found) went
      rw [entering_object passesSecond]
      simp only [Fields.child?_written fields segment.name _ present, Fields.keyFor_set_keyFor,
        Fields.set_set, among child changed (hereditary.child here found) went]
  | _ =>
    rw [entering_eq_among] at ran ⊢
    cases ran
    rw [entering_eq_among]
    rfl

theorem keepsShape_entering (passes : first .null = some .null) (create : Bool) (segment : Segment)
    (definition : Attribute) :
    KeepsShape (entering create segment definition first) := by
  intro value result ran
  cases value with
  | object fields =>
    rw [entering_object passes] at ran
    split at ran
    · cases ran
      rfl
    · obtain ⟨changed, _, rfl⟩ := Option.map_eq_some_iff.mp ran
      rfl
  | _ =>
    rw [entering_eq_among] at ran
    cases ran
    rfl

theorem keepsShape_following (kept : KeepsShape first) (create : Bool) (path : String)
    (segments : List (Segment × Attribute)) : KeepsShape (following create path first segments) := by
  cases segments with
  | nil => exact kept
  | cons entry more =>
    obtain ⟨segment, definition⟩ := entry
    cases more <;> exact keepsShape_entering (by rfl) create segment definition

/-- Following segments a second time leads to what the first change has made, if no filter stands on
the way or the second change adds nothing to the first. What the first creates, the second need not
create. -/
theorem following_composes (hereditary : Hereditary good)
    (composes : Composes good first second both) (kept : KeepsShape first) {create again : Bool}
    (within : again = true → create = true) (path text : String)
    (segments : List (Segment × Attribute))
    (alone : (∀ entry ∈ segments, entry.1.filter = none) ∨ first = both) :
    Composes good (following create path first segments) (following again text second segments)
      (following create path both segments) := by
  induction segments with
  | nil => exact composes
  | cons entry more ih =>
    obtain ⟨segment, definition⟩ := entry
    have here : segment.filter = none ∨ first = both :=
      alone.imp_left fun plain => plain (segment, definition) List.mem_cons_self
    have later := ih (alone.imp_left fun plain entry member =>
      plain entry (List.mem_cons_of_mem _ member))
    cases more with
    | nil =>
      exact entering_composes hereditary (present_composes composes kept) (keepsShape_present kept)
        within segment definition (here.imp_right fun same => by rw [same]) rfl rfl rfl
    | cons next more =>
      exact entering_composes hereditary
        (passing_composes hereditary later (keepsShape_following kept create path _) path text)
        (keepsShape_passing (keepsShape_following kept create path _) path) within segment definition
        (here.imp_right fun same => by rw [same]) rfl rfl rfl

end Focus

end

/-- The operations turn no container into a value of another shape. -/
theorem Resource.keepsShape_containerChange (kind : OpKind) (path : Path) (definition : Attribute)
    (value : Json) (last : Segment) :
    Json.KeepsShape fun place => (containerChange kind path definition value last place).done? := by
  intro place result ran
  by_cases null : place = .null
  · subst null
    cases kind <;> cases ran
  · dsimp only at ran
    rw [done?_containerChange _ _ _ _ _ _ null] at ran
    exact Json.keepsShape_through _ _ place result ran

end Scim
