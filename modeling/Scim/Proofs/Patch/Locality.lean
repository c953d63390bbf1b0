import Scim.Proofs.Patch.Narrowing
import Scim.Proofs.Resource.Locality

/-! A patch stays within one entry of the resource: that of the extension that owns its attribute,
or that of the first name of its path. -/
namespace Scim

namespace Resource

/-- The change touches no entry but the one of a name, and reads no other. -/
structure ConfinedTo (name : String) (change : Resource → Outcome PatchError Resource) : Prop where
  /-- All other entries keep spelling, value and order, also when the change stops half-way. -/
  frame : ∀ resource : Resource,
    (change resource).value.fields.erase (resource.fields.keyFor name) =
      resource.fields.erase (resource.fields.keyFor name)
  /-- Where the entry is the same, so are the fault and the new entry. -/
  determined : ∀ first second : Resource,
    first.fields.key? name = second.fields.key? name →
    first.fields.find? name = second.fields.find? name →
    (change first).fault = (change second).fault ∧
      (change first).value.fields.get? (first.fields.keyFor name) =
        (change second).value.fields.get? (second.fields.keyFor name)

/-- Two changes that may be made in either order, but for the order of new keys. -/
structure Commute (change other : Resource → Outcome PatchError Resource) : Prop where
  fault : ∀ resource : Resource, (change (other resource).value).fault = (change resource).fault
  fault_other : ∀ resource : Resource,
    (other (change resource).value).fault = (other resource).fault
  fields : ∀ resource : Resource, Fields.SameUpToNew resource.fields
    (other (change resource).value).value.fields (change (other resource).value).value.fields

theorem Local.confinedTo {name : String} {change : Resource → Outcome PatchError Resource}
    (placed : Local name change) : ConfinedTo name change := by
  obtain ⟨act, acts⟩ := placed
  constructor
  · intro resource
    rw [acts]
    exact Fields.erase_put ..
  · intro first second _ sameValue
    rw [acts, acts, sameValue]
    refine ⟨rfl, ?_⟩
    simp only [Outcome.map, Fields.get?_put]

/-- Changes within entries of different names commute: neither sees what the other puts. -/
theorem Local.commute {name other : String} (different : ¬ Caseless name other)
    {change further : Resource → Outcome PatchError Resource} (placed : Local name change)
    (placedOther : Local other further) : Commute change further := by
  obtain ⟨act, acts⟩ := placed
  obtain ⟨actOther, actsOther⟩ := placedOther
  -- the keys are told apart as the names are
  have apart (fields : Fields) : ¬ Caseless (fields.keyFor name) other :=
    fun same => different ((Fields.keyFor_caseless fields name).symm.trans same)
  have apartOther (fields : Fields) : ¬ Caseless (fields.keyFor other) name :=
    fun same => different (same.symm.trans (Fields.keyFor_caseless fields other))
  constructor
  · intro resource
    rw [acts, acts, actsOther]
    simp only [Outcome.map, Fields.find?_put_other _ (apartOther _)]
  · intro resource
    rw [actsOther, actsOther, acts]
    simp only [Outcome.map, Fields.find?_put_other _ (apart _)]
  · intro resource
    rw [actsOther, acts, acts, actsOther]
    simp only [Outcome.map, Fields.find?_put_other _ (apart _),
      Fields.find?_put_other _ (apartOther _), Fields.keyFor_put_other _ (apart _),
      Fields.keyFor_put_other _ (apartOther _)]
    refine Fields.put_comm _ ?_ _ _
    intro same
    exact apart _ (same ▸ Fields.keyFor_caseless resource.fields other)

end Resource

namespace Patch

variable {patch : Patch} {type : ResourceType} {written : Path} {found : Resolution}

/-- A patch at a path in its own text is local, a remove by value that is taken up again from
another text among them. -/
theorem local_applyAtPath (distinct : type.Distinct) (leads : patch.LeadsTo type written found)
    (options : PatchOptions) (kind : OpKind) :
    Resource.Local found.topName (patch.applyAtPath type options kind) := by
  rcases applyAtPath_cases distinct leads options kind with
    ⟨error, _, stops⟩ | ⟨further, read, operation, definition, looked, applies⟩
  · rw [funext stops]
    exact Resource.local_stopped ..
  · rw [funext applies]
    exact local_applyResolved distinct looked further options operation definition

theorem local_apply (distinct : type.Distinct) (leads : patch.LeadsTo type written found)
    (options : PatchOptions) : Resource.Local found.topName (patch.apply type options) := by
  have given : patch.path.isEmpty = false := by simpa using leads.nonempty
  unfold apply
  cases patch.kind? with
  | none => exact Resource.local_stopped ..
  | some kind =>
    simp only [given, Bool.not_false, if_true]
    exact local_applyAtPath distinct leads options kind

/-- **One patch changes one entry.** A patch whose path resolves reads and changes the entry alone
in which its path starts, whether it succeeds or not, so patches of different entries commute. -/
theorem confinedTo_topName_and_commute (distinct : type.Distinct)
    (leads : patch.LeadsTo type written found) (options : PatchOptions) :
    Resource.ConfinedTo found.topName (patch.apply type options) ∧
      ∀ (other : Patch) (otherWritten : Path) (otherFound : Resolution)
        (otherOptions : PatchOptions), other.LeadsTo type otherWritten otherFound →
        ¬ Caseless found.topName otherFound.topName →
        Resource.Commute (patch.apply type options) (other.apply type otherOptions) := by
  refine ⟨(local_apply distinct leads options).confinedTo, ?_⟩
  intro other otherWritten otherFound otherOptions otherLeads different
  exact (local_apply distinct leads options).commute different
    (local_apply distinct otherLeads otherOptions)

def removeBadge : Patch := ⟨"remove", "Badges", some (.string "A1")⟩

theorem removeBadge_leadsTo : removeBadge.LeadsTo sampleType ⟨none, [⟨"Badges", none⟩]⟩
    ⟨[{ name := "badges", multiValued := true }], .extension
      { id := "urn:ext:Work", attributes := [{ name := "badges", multiValued := true }] }⟩ where
  nonempty := by decide
  parsed := by decide +kernel
  resolved := rfl

theorem removeBadge_confined_and_commutes :
    Resource.ConfinedTo "urn:ext:Work" (removeBadge.apply sampleType {}) ∧
      Resource.Commute (removeBadge.apply sampleType {})
        (replaceWorkMails.apply sampleType { normalizeValues := false }) := by
  obtain ⟨confined, commute⟩ :=
    confinedTo_topName_and_commute sampleType_distinct removeBadge_leadsTo {}
  exact ⟨confined, commute replaceWorkMails _ _ _ replaceWorkMails_addresses.toLeadsTo (by decide)⟩

end Patch
end Scim
