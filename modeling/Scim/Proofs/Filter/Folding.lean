import Scim.Proofs.Filter.Operators
import Scim.Proofs.Text.Sigma

/-! Comparisons of texts without regard to case. What a text equals, starts with, ends with or
contains character for character it does without regard to case as well, unless a capital sigma
ends a word in the one text and not in the other. -/
namespace Scim

variable {a b : String}

namespace CompareOp

/-- A text that starts with another is found to do so just if no sigma changes. -/
theorem holds_startsWith_iff {after : List Char} (ignoreCase : Bool)
    (parts : a.toList = b.toList ++ after) :
    startsWith.holds ignoreCase (.string a) (.string b) = true ↔
      (ignoreCase = true → ¬ Text.SigmaChanges [] b.toList after) := by
  rw [holds_string, holdsOfTexts_startsWith]
  cases ignoreCase with
  | false => simp [comparedText, parts]
  | true =>
    rw [comparedText, if_pos rfl, comparedText, if_pos rfl, parts, Text.lowerCase_prefix_iff]
    exact ⟨fun kept _ => kept, fun kept => kept rfl⟩

theorem holds_endsWith_iff {before : List Char} (ignoreCase : Bool)
    (parts : a.toList = before ++ b.toList) :
    endsWith.holds ignoreCase (.string a) (.string b) = true ↔
      (ignoreCase = true → ¬ Text.SigmaChanges before.reverse b.toList []) := by
  rw [holds_string, holdsOfTexts_endsWith]
  cases ignoreCase with
  | false => simp [comparedText, parts]
  | true =>
    rw [comparedText, if_pos rfl, comparedText, if_pos rfl, parts, Text.lowerCase_suffix_iff]
    exact ⟨fun kept _ => kept, fun kept => kept rfl⟩

theorem holds_contains {before after : List Char} {ignoreCase : Bool}
    (parts : a.toList = before ++ b.toList ++ after)
    (kept : ignoreCase = true → ¬ Text.SigmaChanges before.reverse b.toList after) :
    contains.holds ignoreCase (.string a) (.string b) = true := by
  rw [holds_string, holdsOfTexts_contains]
  cases ignoreCase with
  | false => exact ⟨before, after, parts.symm⟩
  | true =>
    rw [comparedText, if_pos rfl, comparedText, if_pos rfl, parts]
    exact Text.lowerCase_infix (kept rfl)

/-- Of a value of which a comparison holds exactly it holds without regard to case, if the expected
text has no capital sigma. -/
theorem holds_of_exact {op : CompareOp} (listed : op ∈ [equal, startsWith, endsWith, contains])
    (sigmaless : op = equal ∨ 'Σ' ∉ b.toList) (ignoreCase : Bool) {actual : Json}
    (satisfied : op.holds false actual (.string b) = true) :
    op.holds ignoreCase actual (.string b) = true := by
  have positive : op ≠ notEqual := by
    rintro rfl
    simp at listed
  by_cases text : actual.kind = .string
  · obtain ⟨a, rfl⟩ := Json.exists_string text
    rw [holds_string] at satisfied
    have kept (apart : op ≠ equal) (before after : List Char) :
        ignoreCase = true → ¬ Text.SigmaChanges before b.toList after := fun _ =>
      Text.not_sigmaChanges_of_not_mem (sigmaless.resolve_left apart) before after
    simp only [List.mem_cons, List.not_mem_nil, or_false] at listed
    rcases listed with rfl | rfl | rfl | rfl
    · have same : a = b := String.toList_injective ((holdsOfTexts_equal ..).mp satisfied)
      rw [same, holds_equal_self rfl]
    · obtain ⟨after, parts⟩ := (holdsOfTexts_startsWith ..).mp satisfied
      exact (holds_startsWith_iff ignoreCase parts.symm).mpr (kept (by decide) _ _)
    · obtain ⟨before, parts⟩ := (holdsOfTexts_endsWith ..).mp satisfied
      exact (holds_endsWith_iff ignoreCase parts.symm).mpr (kept (by decide) _ _)
    · obtain ⟨before, after, parts⟩ := (holdsOfTexts_contains ..).mp satisfied
      exact holds_contains parts.symm (kept (by decide) _ _)
  · have different : actual.kind ≠ (Json.string b).kind := text
    rw [holds_of_kind_ne different, beq_iff_eq] at satisfied
    exact absurd satisfied positive

end CompareOp

namespace Filter

variable {scope : Scope} {path : Path} {fragment : Json} {op : CompareOp}

theorem holds_of_reached {actual expected : Json} (reached : actual ∈ path.select fragment)
    (comparing : op ≠ .present)
    (satisfied : op.holds (ignoresCase (scope.find? path)) actual expected = true) :
    (compare path op expected).holds scope fragment = true :=
  (holdsOfAny_iff comparing).mpr ⟨actual, reached, satisfied⟩

/-- **Ignoring case keeps what matches, up to sigmas.** A text that is reached is found by itself,
and by what it contains, starts with or ends with character for character, unless case is ignored
and a capital sigma changes. If one changes in what the only text reached starts or ends with, that
text is missed. None changes where the expected text has none, or no letter stands next to the
match. So for an expected text without sigmas a comparison that holds of an exact attribute holds of
any. -/
theorem holds_of_exact_match (scope : Scope) {path : Path} {fragment : Json} {a b : String}
    (reached : .string a ∈ path.select fragment) :
    (a = b → (compare path .equal (.string b)).holds scope fragment = true) ∧
    (∀ before after, a.toList = before ++ b.toList ++ after →
      (ignoresCase (scope.find? path) = true →
        ¬ Text.SigmaChanges before.reverse b.toList after) →
      (compare path .contains (.string b)).holds scope fragment = true ∧
      (before = [] → (compare path .startsWith (.string b)).holds scope fragment = true) ∧
      (after = [] → (compare path .endsWith (.string b)).holds scope fragment = true)) ∧
    (path.select fragment = [.string a] → ignoresCase (scope.find? path) = true →
      (∀ after, a.toList = b.toList ++ after → Text.SigmaChanges [] b.toList after →
        (compare path .startsWith (.string b)).holds scope fragment = false) ∧
      (∀ before, a.toList = before ++ b.toList → Text.SigmaChanges before.reverse b.toList [] →
        (compare path .endsWith (.string b)).holds scope fragment = false)) ∧
    (∀ before after, 'Σ' ∉ b.toList ∨ Text.meetsCased before = false ∧
        Text.meetsCased after = false → ¬ Text.SigmaChanges before b.toList after) ∧
    (∀ (exact : Scope) (op : CompareOp), op ∈ [.equal, .startsWith, .endsWith, .contains] →
      op = .equal ∨ 'Σ' ∉ b.toList → ignoresCase (exact.find? path) = false →
      (compare path op (.string b)).holds exact fragment = true →
      (compare path op (.string b)).holds scope fragment = true) := by
  refine ⟨?equal, ?kept, ?changed, ?unchanged, ?narrower⟩
  case equal =>
    rintro rfl
    exact holds_of_reached reached (by decide) (CompareOp.holds_equal_self rfl _)
  case kept =>
    intro before after parts kept
    refine ⟨holds_of_reached reached (by decide) (CompareOp.holds_contains parts kept), ?_, ?_⟩
    · rintro rfl
      exact holds_of_reached reached (by decide) ((CompareOp.holds_startsWith_iff _ parts).mpr kept)
    · rintro rfl
      rw [List.append_nil] at parts
      exact holds_of_reached reached (by decide) ((CompareOp.holds_endsWith_iff _ parts).mpr kept)
  case changed =>
    intro alone ignored
    refine ⟨fun after parts changes => ?_, fun before parts changes => ?_⟩
    · rw [holds, alone, holdsOfAny_singleton (by decide), Bool.eq_false_iff, Ne,
        CompareOp.holds_startsWith_iff _ parts]
      exact fun kept => kept ignored changes
    · rw [holds, alone, holdsOfAny_singleton (by decide), Bool.eq_false_iff, Ne,
        CompareOp.holds_endsWith_iff _ parts]
      exact fun kept => kept ignored changes
  case unchanged =>
    rintro before after (sigmaless | ⟨noneBefore, noneAfter⟩)
    · exact Text.not_sigmaChanges_of_not_mem sigmaless before after
    · exact Text.not_sigmaChanges_of_apart noneBefore noneAfter b.toList
  case narrower =>
    intro exact op listed sigmaless exactly satisfied
    have comparing : op ≠ .present := by
      rintro rfl
      simp at listed
    obtain ⟨actual, member, holds⟩ := (holdsOfAny_iff comparing).mp satisfied
    rw [exactly] at holds
    exact holds_of_reached member comparing (CompareOp.holds_of_exact listed sigmaless _ holds)

/-- A word that ends in a sigma, ahead of a blank. -/
theorem finalSigma_found :
    (compare ⟨none, [⟨"value", none⟩]⟩ .startsWith (.string "ΟΔΥΣ")).holds
      (.element { name := "names" }) (.string "ΟΔΥΣ ΕΑΣ") = true := by
  have reached : Json.string "ΟΔΥΣ ΕΑΣ" ∈
      (Path.mk none [⟨"value", none⟩]).select (.string "ΟΔΥΣ ΕΑΣ") := by decide
  obtain ⟨_, kept, _, unchanged, _⟩ :=
    holds_of_exact_match (b := "ΟΔΥΣ") (.element { name := "names" }) reached
  have apart : Text.meetsCased [] = false ∧ Text.meetsCased " ΕΑΣ".toList = false := by
    decide +kernel
  exact (kept [] " ΕΑΣ".toList rfl fun _ => unchanged _ _ (.inr apart)).2.1 rfl

/-- A sigma that ends the expected text and not the word that it starts is lowered to another
letter. So what is found of an exact attribute is missed where case is ignored. -/
theorem innerSigma_missed :
    let found (exact : Bool) (op : CompareOp) (expected : String) : Bool :=
      (compare ⟨none, [⟨"value", none⟩]⟩ op (.string expected)).holds
        (.element { name := "names", caseExact := exact }) (.string "ΟΔΥΣΣΕΑΣ")
    found true .startsWith "ΟΔΥΣ" = true ∧ found false .startsWith "ΟΔΥΣ" = false ∧
      found true .contains "ΟΔΥΣ" = true ∧ found false .contains "ΟΔΥΣ" = false ∧
      found true .endsWith "Σ" = true ∧ found false .endsWith "Σ" = false := by
  decide +kernel

end Filter
end Scim
