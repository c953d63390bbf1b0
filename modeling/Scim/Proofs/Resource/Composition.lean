import Scim.Proofs.Resource.Passage

/-! Changes along one path made in turn. Where the edits of the objects that are reached make up a
single edit, so do the changes of the document; and a change of the containers may be followed by
any other, which finds the same containers again. -/
namespace Scim

structure HolderEdit.Composes (good : Json → Prop) (first second both : HolderEdit) : Prop where
  inObject : ∀ fields, good (.object fields) →
    second.inObject (first.inObject fields) = both.inObject fields
  inItem : ∀ fields, good (.object fields) →
    second.inItem (first.inItem fields) = both.inItem fields

theorem Owner.exists_extension? (schema : Option Schema) :
    ∃ owner : Owner, owner.extension? = schema := by
  cases schema with
  | none => exact ⟨.core, rfl⟩
  | some schema => exact ⟨.extension schema, rfl⟩

/-- Segments without filters stay so beside their definitions. -/
theorem ResourceType.definitions_unfiltered (type : ResourceType) {base : Path}
    (plain : ∀ segment ∈ base.segments, segment.filter = none) :
    ∀ entry ∈ type.definitions base, entry.1.filter = none := by
  intro entry member
  unfold definitions at member
  split at member
  · exact plain entry.1 (List.of_mem_zip member).1
  · cases member

namespace Fields

variable {good : Json → Prop} {create again : Bool}

theorem composes_edits {first second both : Fields → Fields}
    (edits : ∀ fields, good (.object fields) → second (first fields) = both fields) :
    Composes (fun fields => good (.object fields)) (fun fields => some (first fields))
      (fun fields => some (second fields)) fun fields => some (both fields) := by
  intro fields middle here ran
  cases ran
  exact congrArg some (edits fields here)

theorem descend_composes (hereditary : Json.Hereditary good) {first second both : HolderEdit}
    (edits : HolderEdit.Composes good first second both) (within : again = true → create = true)
    (segments : List (Segment × Attribute))
    (alone : (∀ entry ∈ segments, entry.1.filter = none) ∨ first = both) :
    Composes (fun fields => good (.object fields)) (descend create first segments)
      (descend again second segments) (descend create both segments) := by
  have through := Json.through_composes hereditary (composes_edits edits.inObject)
    (composes_edits edits.inItem)
  have followed := Focus.following_composes hereditary through (Json.keepsShape_through _ _) within
    "" "" segments (alone.imp_right fun same => by rw [same])
  intro fields middle here ran
  have way (create : Bool) (edit : HolderEdit) (fields : Fields) :
      Focus.following create "" (Json.through (fun fields => some (edit.inObject fields))
        fun fields => some (edit.inItem fields)) segments (.object fields) =
          (fields.descend create edit segments).map .object :=
    Focus.following_object (fun _ _ => rfl) create "" segments fields
  have joined := followed (.object fields) (.object middle) here (by rw [way, ran]; rfl)
  rw [way, way] at joined
  exact Option.map_injective (fun _ _ => Json.object.inj) joined

/-- The object of an extension is a child that is created whatever its attributes are. -/
theorem atHome_extension {owner : Owner} {schema : Schema} (owned : owner.extension? = some schema)
    (create : Bool) (go : Fields → Option Fields) (fields : Fields) :
    fields.atHome create owner go =
      match fields.child? schema.id create with
      | none => some fields
      | some (.object inner) =>
        (go inner).map fun inner => fields.set (fields.keyFor schema.id) (.object inner)
      | some _ => none := by
  simp only [atHome, owned, child?]
  cases fields.find? schema.id with
  | none => cases create <;> rfl
  | some value =>
    cases value with
    | null => cases create <;> rfl
    | _ => rfl

theorem atHome_composes (hereditary : Json.Hereditary good)
    {first second both : Fields → Option Fields}
    (composes : Composes (fun fields => good (.object fields)) first second both)
    (within : again = true → create = true) (owner : Owner) :
    Composes (fun fields => good (.object fields)) (atHome create owner first)
      (atHome again owner second) (atHome create owner both) := by
  intro (fields : Fields) middle here ran
  cases owned : owner.extension? with
  | none =>
    simp only [atHome, owned] at ran ⊢
    exact composes fields middle here ran
  | some schema =>
    rw [atHome_extension owned] at ran ⊢
    rw [atHome_extension owned]
    cases found : fields.child? schema.id create with
    | none =>
      simp only [found] at ran
      cases ran
      have absent : fields.child? schema.id again = none := by
        cases again with
        | true => rwa [within rfl] at found
        | false => exact child?_keep_eq_none found
      simp only [absent]
    | some child =>
      cases child with
      | object inner =>
        simp only [found] at ran
        obtain ⟨changed, went, rfl⟩ := Option.map_eq_some_iff.mp ran
        have present : Json.object changed ≠ .null := Json.noConfusion
        simp only [child?_written fields schema.id _ present, keyFor_set_keyFor, set_set,
          composes inner changed (hereditary.child here found) went]
      | _ =>
        simp only [found] at ran
        cases ran

end Fields

namespace Resource

/-- Following one path twice is following it once, with both edits in turn, if no filter stands on
the way or the second edit adds nothing to the first. -/
theorem descend_composes {good : Json → Prop} (hereditary : Json.Hereditary good)
    {first second both : Segment → HolderEdit}
    (edits : ∀ last, HolderEdit.Composes good (first last) (second last) (both last))
    (type : ResourceType) (create : Bool) (owner : Owner) (path : Path)
    (alone : (∀ segment ∈ path.segments.dropLast, segment.filter = none) ∨ first = both) :
    Composes (fun resource => good (document resource)) (descend type create owner path first)
      (descend type create owner path second) (descend type create owner path both) := by
  intro resource middle here ran
  unfold descend at ran ⊢
  cases split : path.split? with
  | none => simp [split] at ran
  | some parts =>
    obtain ⟨base, last⟩ := parts
    simp only [split] at ran ⊢
    obtain ⟨fields, went, rfl⟩ := Option.map_eq_some_iff.mp ran
    have onWay : (∀ entry ∈ type.definitions base, entry.1.filter = none) ∨
        first last = both last := by
      refine alone.imp (fun plain => ?_) fun same => congrFun same last
      obtain ⟨_, ends, same⟩ := Option.map_eq_some_iff.mp split
      cases same
      exact type.definitions_unfiltered plain
    have composed := Fields.atHome_composes hereditary
      (Fields.descend_composes hereditary (edits last) (fun creates => creates)
        (type.definitions base) onWay) (fun creates => creates) owner resource.fields fields here went
    rw [composed]

/-- The recursion for any change of the containers that edits the objects there. -/
theorem changeContainers_eq_done_iff {type : ResourceType} (distinct : type.Distinct) {path : Path}
    {found : Resolution} (looked : type.lookup path = some found) (create : Bool)
    {change : Segment → Json → Outcome PatchError Json} {edit : Segment → HolderEdit}
    (edits : ∀ last value, value ≠ .null → (change last value).done? =
      Json.through (fun fields => some ((edit last).inObject fields))
        (fun fields => some ((edit last).inItem fields)) value)
    (resource result : Resource) :
    resource.changeContainers type create (type.respell found path) change = .done result ↔
      resource.descend type create found.owner (type.respell found path) edit = some result := by
  obtain ⟨base, last, split, _, schema, leads⟩ := ResourceType.split_respell distinct looked
  have owned := ResourceType.extension?_canonicalUrn distinct looked
  rw [← schema] at owned
  rw [← Outcome.done?_eq_some_iff, done?_changeContainers _ _ _ _ _ split, descend, split]
  simp only [containers_traverse type create _ base owned leads (edits last), Option.map_map]
  rfl

/-- **Two changes in turn.** Where a first change of the containers behind a base without filters has
succeeded, a second one finds the same containers, with what the first has left there. -/
theorem containers_again (type : ResourceType) {base : Path}
    (leads : base.isRoot = true ∨ ∃ found, type.lookup base = some found)
    (plain : ∀ segment ∈ base.segments, segment.filter = none) {create again : Bool}
    (within : again = true → create = true) {first second : Json → Option Json}
    (keptFirst : Json.KeepsShape first) (keptSecond : Json.KeepsShape second) {resource : Resource}
    {middle : Json}
    (ran : (resource.containers type create base).done?.bind (·.traverse first) = some middle) :
    ((ofDocument middle).containers type again base).done?.bind (·.traverse second) =
      (resource.containers type create base).done?.bind
        (·.traverse fun value => (first value).bind second) := by
  have composes : Composes (fun _ => True) first second fun value => (first value).bind second := by
    intro value middle _ changed
    simp only [changed, Option.bind_some]
  obtain ⟨owner, owned⟩ := Owner.exists_extension? (base.schema.bind type.extension?)
  have home {change : Json → Option Json} (kept : Json.KeepsShape change) (create : Bool) :=
    home_traverse type create owner base.schema owned.symm _ _
      (Focus.keepsShape_following kept create base.render (type.definitions base)).onObjects
  have followed := Focus.following_composes Json.hereditary_true composes keptFirst within base.render
    base.render (type.definitions base) (.inl (type.definitions_unfiltered plain))
  have joined := Fields.atHome_composes Json.hereditary_true followed.onObjects within owner
  rw [containers_bind_traverse type create base leads, home keptFirst] at ran
  obtain ⟨fields, went, rfl⟩ := Option.map_eq_some_iff.mp ran
  rw [containers_bind_traverse type create base leads, containers_bind_traverse type again base leads,
    home keptSecond, home (keptFirst.bind keptSecond)]
  exact congrArg _ (joined resource.fields fields trivial went)

end Resource
end Scim
