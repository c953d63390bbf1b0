import Scim.Proofs.Resource.Descent

/-! Navigation below one entry of a resource. A path starts at the entry that its owner and its
first name give, sees nothing else of the resource, and leaves everything else as it is. -/
namespace Scim

/-- The entry of a resource in which a resolved path stays: that of the extension, or that of
its first attribute. -/
def Resolution.topName (found : Resolution) : String :=
  match found.owner with
  | .extension schema => schema.id
  | _ => (found.chain.head?.map (·.name)).getD ""

namespace Resolution

variable {found : Resolution}

theorem topName_of_extension {schema : Schema} (owned : found.owner.extension? = some schema) :
    found.topName = schema.id := by
  cases owner : found.owner <;> simp_all [topName, Owner.extension?]

theorem topName_of_unowned (unowned : found.owner.extension? = none) :
    found.topName = (found.chain.head?.map (·.name)).getD "" := by
  cases owner : found.owner <;> simp_all [topName, Owner.extension?]

end Resolution

/-- The change is a function of one entry of the resource, and puts that entry only. -/
def Resource.Local (name : String) (change : Resource → Outcome PatchError Resource) : Prop :=
  ∃ act : Option Json → Outcome PatchError (Option Json), ∀ resource : Resource,
    change resource = (act (resource.fields.find? name)).map fun entry =>
      ⟨resource.fields.put (resource.fields.keyFor name) entry⟩

/-- A local change that never takes the entry away. -/
def Resource.LocalKeeping (name : String) (change : Resource → Outcome PatchError Resource) :
    Prop :=
  ∃ act : Option Json → Outcome PatchError (Option Json),
    (∀ entry, (act entry).value = none → entry = none) ∧ ∀ resource : Resource,
      change resource = (act (resource.fields.find? name)).map fun entry =>
        ⟨resource.fields.put (resource.fields.keyFor name) entry⟩

theorem Resource.LocalKeeping.toLocal {name : String}
    {change : Resource → Outcome PatchError Resource} (placed : LocalKeeping name change) :
    Local name change :=
  let ⟨act, _, acts⟩ := placed
  ⟨act, acts⟩

def entrySlot (entry : Option Json) (create : Bool) : Option Json :=
  match entry, create with
  | none, true | some .null, true => some (.object [])
  | found, _ => found

theorem Fields.slot?_eq_entrySlot (fields : Fields) (name : String) (create : Bool) :
    fields.slot? name create = entrySlot (fields.find? name) create := by
  change entrySlot (fields.get? (fields.keyFor name)) create = _
  rw [Fields.get?_keyFor]

namespace Focus

def pursue (create : Bool) (path : String) (more : List (Segment × Attribute))
    (reached : Focus) : Outcome PatchError Focus :=
  match more with
  | [] => .done (reached.refine present)
  | next :: more =>
    match reached.targets.findSome? (obstacle? path) with
    | some fault => .stopped reached fault
    | none => follow create path (next :: more) (reached.refine parents)

theorem follow_cons (create : Bool) (path : String) (segment : Segment) (definition : Attribute)
    (more : List (Segment × Attribute)) (focus : Focus) :
    focus.follow create path ((segment, definition) :: more) =
      (focus.enter create segment definition).pursue create path more := by
  cases more <;> rfl

theorem enter_member (create : Bool) (segment : Segment) (definition : Attribute)
    (fields : Fields) (key : String) (inner : Focus) :
    (member fields key inner).enter create segment definition =
      member fields key (inner.enter create segment definition) := by
  unfold enter
  cases segment.filter <;> rfl

theorem enter_plain (create : Bool) (segment : Segment) (definition : Attribute) (value : Json) :
    (plain value).enter create segment definition = plain value := by
  simp only [enter]
  cases segment.filter <;> rfl

/-- Places within the value of a field are followed without regard to the other fields. -/
theorem follow_member (create : Bool) (path : String) (segments : List (Segment × Attribute))
    (fields : Fields) (key : String) (inner : Focus) :
    (member fields key inner).follow create path segments =
      (inner.follow create path segments).map (member fields key) := by
  induction segments generalizing inner with
  | nil => rfl
  | cons first more ih =>
    obtain ⟨segment, definition⟩ := first
    rw [follow_cons, follow_cons, enter_member]
    cases more with
    | nil => rfl
    | cons next more =>
      simp only [pursue, targets, refine, ih]
      cases (inner.enter create segment definition).targets.findSome? (obstacle? path) <;> rfl

theorem pursue_member (create : Bool) (path : String) (more : List (Segment × Attribute))
    (fields : Fields) (key : String) (inner : Focus) :
    (member fields key inner).pursue create path more =
      (inner.pursue create path more).map (member fields key) := by
  cases more with
  | nil => rfl
  | cons next more =>
    simp only [pursue, targets, refine, follow_member]
    cases inner.targets.findSome? (obstacle? path) <;> rfl

theorem follow_plain (create : Bool) (path : String) (segments : List (Segment × Attribute))
    (value : Json) : (plain value).follow create path segments = .done (plain value) := by
  induction segments with
  | nil => rfl
  | cons first more ih =>
    obtain ⟨segment, definition⟩ := first
    rw [follow_cons, enter_plain]
    cases more with
    | nil => rfl
    | cons next more => simpa only [pursue, targets, refine, List.findSome?_nil] using ih

theorem pursue_plain (create : Bool) (path : String) (more : List (Segment × Attribute))
    (value : Json) : (plain value).pursue create path more = .done (plain value) := by
  cases more with
  | nil => rfl
  | cons next more => exact follow_plain create path (next :: more) value

def inEntry (fields : Fields) (name : String) : Option Focus → Focus
  | some inner => member fields (fields.keyFor name) inner
  | none => plain (.object fields)

def selected (segment : Segment) (definition : Attribute) (value : Json) : Focus :=
  match segment.filter with
  | some filter => select (fun item => filter.holds (.element definition) item) value
  | none => target value

theorem enter_object (create : Bool) (segment : Segment) (definition : Attribute)
    (fields : Fields) :
    (target (.object fields)).enter create segment definition =
      inEntry fields segment.name ((entrySlot (fields.find? segment.name)
        (create && definition.isComplex && !definition.multiValued)).map
          (selected segment definition)) := by
  unfold enter selected
  simp only [refine, descend, Fields.slot?_eq_entrySlot]
  cases entrySlot (fields.find? segment.name)
      (create && definition.isComplex && !definition.multiValued) <;>
    cases segment.filter <;> rfl

def pursueEntry (create : Bool) (path : String) (more : List (Segment × Attribute)) :
    Option Focus → Outcome PatchError (Option Focus)
  | some inner => (inner.pursue create path more).map some
  | none => .done none

theorem pursue_inEntry (create : Bool) (path : String) (more : List (Segment × Attribute))
    (fields : Fields) (name : String) (inner : Option Focus) :
    (inEntry fields name inner).pursue create path more =
      (pursueEntry create path more inner).map (inEntry fields name) := by
  cases inner with
  | none => exact pursue_plain ..
  | some inner => exact pursue_member ..

end Focus

namespace Resource

variable {type : ResourceType}

/-- Where the containers of an attribute lie, as a function of one entry of the resource. -/
def ContainersLocal (type : ResourceType) (create : Bool) (base : Path) (name : String) : Prop :=
  ∃ reach : Option Json → Outcome PatchError (Option Focus), ∀ resource : Resource,
    resource.containers type create base =
      (reach (resource.fields.find? name)).map (Focus.inEntry resource.fields name)

/-- Below the top level navigation starts in the entry of the first segment. -/
theorem containersLocal_of_segment (create : Bool) (base : Path)
    (unowned : base.schema.bind type.extension? = none) {segment : Segment} {more : List Segment}
    (starts : base.segments = segment :: more) {found : Resolution}
    (looked : type.lookup base = some found) :
    ContainersLocal type create base segment.name := by
  have length := ResourceType.chain_length looked
  have onward : base.isRoot = false := by simp [Path.isRoot, starts]
  obtain ⟨definition, others, chain⟩ : ∃ definition others, found.chain = definition :: others := by
    cases h : found.chain with
    | nil => simp [h, starts] at length
    | cons definition others => exact ⟨_, _, rfl⟩
  refine ⟨fun entry => Focus.pursueEntry create base.render (more.zip others)
    ((entrySlot entry (create && definition.isComplex && !definition.multiValued)).map
      (Focus.selected segment definition)), ?_⟩
  intro resource
  simp only [containers, home, unowned, looked, onward, starts, chain, List.zip_cons_cons,
    Outcome.done, Focus.targets, Option.isSome_none, List.isEmpty_cons, Bool.or_self,
    Bool.false_eq_true, if_false, document]
  rw [Focus.follow_cons, Focus.enter_object, Focus.pursue_inEntry]

def reachExtension (type : ResourceType) (create : Bool) (base : Path) (schema : Schema)
    (entry : Option Json) : Outcome PatchError (Option Focus) :=
  match entrySlot entry create with
  | some (.object inner) =>
    if base.isRoot then .done (some (.target (.object inner)))
    else
      match type.lookup base with
      | some found =>
        ((Focus.target (.object inner)).follow create base.render
          (base.segments.zip found.chain)).map some
      | none => .stopped (some (.target (.object inner))) (.noAttribute base.render)
  | some .null | none => .done none
  | some _ => .stopped none (.invalidBase schema.id)

/-- Within an extension navigation stays in the entry of its URN. -/
theorem containersLocal_of_extension (create : Bool) (base : Path) {schema : Schema}
    (owned : base.schema.bind type.extension? = some schema) :
    ContainersLocal type create base schema.id := by
  refine ⟨reachExtension type create base schema, ?_⟩
  intro resource
  simp only [containers, home, owned, Fields.slot?_eq_entrySlot, reachExtension]
  cases entrySlot (Fields.find? resource.fields schema.id) create with
  | none => simp [Outcome.done, Focus.targets, Outcome.map, Focus.inEntry, document]
  | some value =>
    cases value with
    | object inner =>
      cases root : base.isRoot with
      | true => simp [Outcome.done, Focus.targets, Outcome.map, Focus.inEntry]
      | false =>
        cases type.lookup base with
        | none =>
          simp [Outcome.done, Outcome.stopped, Focus.targets, Outcome.map, Focus.inEntry]
        | some found =>
          simp only [Outcome.done, Focus.targets, Option.isSome_none, List.isEmpty_cons,
            Bool.or_self, Bool.false_eq_true, if_false, Focus.follow_member]
          rfl
    | _ => simp [Outcome.done, Outcome.stopped, Focus.targets, Outcome.map, Focus.inEntry, document]

/-- What a change makes of an entry at the places that were reached in it. A fault on the way leaves
what was created by then. -/
def editEntry (change : Json → Outcome PatchError Json) (entry : Option Json) :
    Outcome PatchError (Option Focus) → Outcome PatchError (Option Json)
  | ⟨some inner, none⟩ => (inner.edit change).map some
  | ⟨none, none⟩ => .done entry
  | ⟨some inner, some fault⟩ => .stopped (some inner.document) fault
  | ⟨none, some fault⟩ => .stopped entry fault

/-- A change of containers that all lie in one entry is local to it, and leaves it there. -/
theorem localKeeping_of_containers {create : Bool} {path base : Path} {last : Segment}
    {name : String} (split : path.split? = some (base, last))
    (placed : ContainersLocal type create base name)
    (change : Segment → Json → Outcome PatchError Json) :
    LocalKeeping name (changeContainers type create path change) := by
  obtain ⟨reach, reaches⟩ := placed
  refine ⟨fun entry => editEntry (change last) entry (reach entry), ?_, ?_⟩
  · intro entry taken
    dsimp only at taken
    generalize reach entry = reached at taken
    obtain ⟨inner, fault⟩ := reached
    cases inner <;> cases fault <;> first | exact taken | cases taken
  intro resource
  have kept := Fields.put_find? resource.fields name
  simp only [changeContainers, split, reaches]
  cases reach (resource.fields.find? name) with
  | mk inner fault =>
    cases inner <;> cases fault <;>
      simp [editEntry, Outcome.map, Outcome.done, Outcome.stopped, Focus.inEntry, Focus.edit,
        Focus.document, ofDocument, kept] <;> rfl

theorem local_of_containers {create : Bool} {path base : Path} {last : Segment} {name : String}
    (split : path.split? = some (base, last)) (placed : ContainersLocal type create base name)
    (change : Segment → Json → Outcome PatchError Json) :
    Local name (changeContainers type create path change) :=
  (localKeeping_of_containers split placed change).toLocal

end Resource

def entryWithout (definition : Attribute) (filter : Option Filter) (held : Option Json) :
    Option Json :=
  match filter, held with
  | none, _ => none
  | some _, none | some _, some .null => held
  | some filter, some value =>
    let kept := (MultiValued.ofField (some value)).filter (.not filter) (.element definition)
    if kept.isEmpty then none else some (.array kept.items)

def OpKind.entryEdit (definition : Attribute) (value : Json) (last : Segment)
    (held : Option Json) : OpKind → Option Json
  | .add => some <| if definition.multiValued then
      .array ((MultiValued.ofField held).add value).items else value
  | .replace => some value
  | .remove => entryWithout definition (if definition.multiValued then last.filter else none) held

theorem Fields.removeField_eq_put (fields : Fields) (name : String) (filter : Option Filter)
    (definition : Attribute) :
    fields.removeField name filter (.element definition) =
      fields.put (fields.keyFor name) (entryWithout definition filter (fields.find? name)) := by
  have unchanged := put_find? fields name
  unfold removeField
  cases spelled : fields.key? name with
  | none =>
    have missing := (find?_eq_none_iff fields name).mpr spelled
    rw [missing] at unchanged ⊢
    cases filter <;> exact unchanged.symm
  | some key =>
    have keyed : fields.keyFor name = key := by simp [keyFor, spelled]
    have held : fields.get? key = fields.find? name := by rw [← keyed, get?_keyFor]
    rw [keyed] at unchanged ⊢
    cases filter with
    | none => rfl
    | some filter =>
      simp only [removeElements, held]
      cases found : fields.find? name with
      | none => rw [found] at unchanged; exact unchanged.symm
      | some value =>
        rw [found] at unchanged
        cases value with
        | null => exact unchanged.symm
        | _ => simp only [entryWithout]; split <;> rfl

/-- Every edit of an object that holds an attribute puts the entry of that attribute. -/
theorem OpKind.inObject_eq_put (kind : OpKind) (definition : Attribute) (value : Json)
    (last : Segment) (fields : Fields) :
    (kind.holderEdit definition value last).inObject fields =
      fields.put (fields.keyFor last.name)
        (kind.entryEdit definition value last (fields.find? last.name)) := by
  cases kind with
  | add =>
    simp only [holderEdit, entryEdit, Fields.addField, Fields.setField, Fields.get?_keyFor]
    split <;> rfl
  | replace => rfl
  | remove => exact Fields.removeField_eq_put ..

namespace Resource

variable {type : ResourceType}

theorem local_of_root {create : Bool} {path base : Path} {last : Segment}
    (split : path.split? = some (base, last)) (root : base.isRoot = true)
    (unowned : base.schema.bind type.extension? = none) (kind : OpKind) (definition : Attribute)
    (value : Json) :
    Local last.name (changeContainers type create path
      (containerChange kind path definition value)) := by
  refine ⟨fun entry => .done (kind.entryEdit definition value last entry), ?_⟩
  intro resource
  have edited : containerChange kind path definition value last (.object resource.fields) =
      .done (.object ((kind.holderEdit definition value last).inObject resource.fields)) := by
    cases kind <;> rfl
  simp only [changeContainers, split, containers, home, unowned, root, Bool.or_true, if_true,
    Outcome.done, Focus.edit, document] at edited ⊢
  rw [edited, kind.inObject_eq_put]
  rfl

theorem local_stopped (name : String) (error : PatchError) :
    Local name fun resource => .stopped resource error := by
  refine ⟨fun entry => .stopped entry error, ?_⟩
  intro resource
  simp [Outcome.stopped, Outcome.map, Fields.put_find?]

/-- The three operations are local to the entry where their path starts. -/
theorem local_changeContainers (distinct : type.Distinct) {written : Path} {found : Resolution}
    (looked : type.lookup written = some found) (create : Bool) (kind : OpKind)
    (definition : Attribute) (value : Json) :
    Local found.topName (changeContainers type create (type.respell found written)
      (containerChange kind (type.respell found written) definition value)) := by
  obtain ⟨base, last, split, parts, schema, leads⟩ := ResourceType.split_respell distinct looked
  have owned := ResourceType.extension?_canonicalUrn distinct looked
  rw [← schema] at owned
  have first : (base.segments ++ [last]).head?.map (·.name) = found.chain.head?.map (·.name) := by
    rw [← parts, ← List.head?_map, ← List.head?_map]
    exact congrArg List.head? (ResourceType.names_respell looked)
  cases extension : found.owner.extension? with
  | some extended =>
    rw [Resolution.topName_of_extension extension]
    exact local_of_containers split (containersLocal_of_extension create base (owned.trans extension)) _
  | none =>
    rw [Resolution.topName_of_unowned extension, ← first]
    cases starts : base.segments with
    | nil =>
      exact local_of_root split (by simp [Path.isRoot, starts]) (owned.trans extension) ..
    | cons segment more =>
      rcases leads with root | ⟨part, led⟩
      · simp [Path.isRoot, starts] at root
      · exact local_of_containers split
          (containersLocal_of_segment create base (owned.trans extension) starts led) _

end Resource

/-- All that a patch can do at a resolved path: it is refused for its value, or it changes the
containers. A removal writes nothing. -/
theorem Patch.applyResolved_cases (patch : Patch) (type : ResourceType) (options : PatchOptions)
    (kind : OpKind) (path : Path) (definition : Attribute) :
    (∃ error, ∀ resource,
      patch.applyResolved type options kind path definition resource = .stopped resource error) ∨
    ∃ value, (value = .null ∨ patch.preparedValue options kind definition = .ok value) ∧
      ∀ resource, patch.applyResolved type options kind path definition resource =
        resource.changeContainers type (kind != .remove) path
          (Resource.containerChange kind path definition value) := by
  by_cases removal : kind = .remove
  · exact .inr ⟨.null, .inl rfl,
      applyResolved_eq patch type options kind path definition .null (.inl removal)⟩
  · cases prepared : patch.preparedValue options kind definition with
    | ok value =>
      exact .inr ⟨value, .inr rfl,
        applyResolved_eq patch type options kind path definition value (.inr prepared)⟩
    | error error => exact .inl ⟨error, applyResolved_refused removal prepared⟩

/-- A patch at a resolved path is local to the entry where the path starts. -/
theorem Patch.local_applyResolved {type : ResourceType} (distinct : type.Distinct)
    {written : Path} {found : Resolution} (looked : type.lookup written = some found)
    (patch : Patch) (options : PatchOptions) (kind : OpKind) (definition : Attribute) :
    Resource.Local found.topName
      (patch.applyResolved type options kind (type.respell found written) definition) := by
  rcases patch.applyResolved_cases type options kind (type.respell found written) definition with
    ⟨error, stops⟩ | ⟨value, _, changes⟩
  · rw [funext stops]
    exact Resource.local_stopped ..
  · rw [funext changes]
    exact Resource.local_changeContainers distinct looked ..

end Scim
