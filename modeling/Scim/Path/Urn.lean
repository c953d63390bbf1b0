/-! The schema URN in front of an attribute name: everything up to the last colon of a text that
starts with `urn:`. -/
namespace Scim

def splitLastColon : List Char → Option (List Char × List Char)
  | [] => none
  | c :: rest =>
    match splitLastColon rest with
    | some (before, after) => some (c :: before, after)
    | none => if c = ':' then some ([], rest) else none

/-- The URN, if the text has one, and the rest. The colon of `urn:` itself does not end one. -/
def splitUrn (text : List Char) : Option (List Char) × List Char :=
  match text with
  | u :: r :: n :: ':' :: rest =>
    if [u, r, n].map Char.toLower = ['u', 'r', 'n'] then
      match splitLastColon rest with
      | some (before, after) => (some (u :: r :: n :: ':' :: before), after)
      | none => (none, text)
    else (none, text)
  | _ => (none, text)

theorem splitLastColon_eq_none_iff (text : List Char) :
    splitLastColon text = none ↔ ':' ∉ text := by
  induction text with
  | nil => simp [splitLastColon]
  | cons c rest ih =>
    simp only [splitLastColon, List.mem_cons, not_or]
    cases h : splitLastColon rest with
    | some parts =>
      have : ':' ∈ rest := Decidable.byContradiction fun absent => by simp [ih.2 absent] at h
      simp [this]
    | none =>
      have := ih.1 h
      by_cases colon : c = ':' <;> simp [colon, this, eq_comm]

theorem splitLastColon_eq_some {text before after : List Char}
    (h : splitLastColon text = some (before, after)) :
    text = before ++ ':' :: after ∧ ':' ∉ after := by
  induction text generalizing before with
  | nil => simp [splitLastColon] at h
  | cons c rest ih =>
    simp only [splitLastColon] at h
    split at h
    next b a found =>
      simp only [Option.some.injEq, Prod.mk.injEq] at h
      obtain ⟨rfl, rfl⟩ := h
      have := ih found
      simp [← this.1, this.2]
    next missing =>
      split at h
      next colon =>
        simp only [Option.some.injEq, Prod.mk.injEq] at h
        obtain ⟨rfl, rfl⟩ := h
        exact ⟨by simp [colon], (splitLastColon_eq_none_iff rest).1 missing⟩
      next => simp at h

end Scim
