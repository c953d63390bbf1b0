import Mathlib.Data.List.Basic
import Scim.Text.LowerCase

/-! The lower case of a text that stands within another. It is the lower case of the text by itself,
unless one of its capital sigmas ends a word in the one place and not in the other. -/
namespace Scim.Text

/-- Lowers a text that stands between two others, of which `before` is read backwards. -/
def lowerBetween (before after : List Char) : List Char → List Char
  | [] => []
  | c :: rest =>
    (if c = 'Σ' then [lowerSigma before (rest ++ after)] else lowerChar c) ++
      lowerBetween (c :: before) after rest

/-- A capital sigma of the text has another form between these two than in the text by itself. -/
def SigmaChanges (before text after : List Char) : Prop :=
  ∃ init rest, text = init ++ 'Σ' :: rest ∧
    lowerSigma (init.reverse ++ before) (rest ++ after) ≠ lowerSigma init.reverse rest

/-- A text is lowered part by part, each between the others. -/
theorem lowerFrom_append (before text after : List Char) :
    lowerFrom before (text ++ after) =
      lowerBetween before after text ++ lowerFrom (text.reverse ++ before) after := by
  induction text generalizing before with
  | nil => rfl
  | cons c rest ih =>
    rw [List.cons_append, lowerFrom, ih, lowerBetween, List.reverse_cons, List.append_assoc,
      List.append_assoc, List.singleton_append]

theorem lowerFrom_eq_lowerBetween (before text : List Char) :
    lowerFrom before text = lowerBetween before [] text := by
  have whole := lowerFrom_append before text []
  rwa [List.append_nil, lowerFrom, List.append_nil] at whole

theorem lowerCase_append (before text after : List Char) :
    lowerCase (before ++ text ++ after) =
      lowerBetween [] (text ++ after) before ++ lowerBetween before.reverse after text ++
        lowerFrom (text.reverse ++ before.reverse) after := by
  rw [lowerCase, List.append_assoc, lowerFrom_append, lowerFrom_append, List.append_nil,
    List.append_assoc]

/-- Between whatever texts, lowered it has one length. -/
theorem length_lowerBetween (before after other otherAfter text : List Char) :
    (lowerBetween before after text).length = (lowerBetween other otherAfter text).length := by
  induction text generalizing before other with
  | nil => rfl
  | cons c rest ih =>
    rw [lowerBetween, lowerBetween, List.length_append, List.length_append,
      ih (c :: before) (c :: other)]
    split <;> rfl

/-- The capital sigmas of a text are the first character, if it is one, and those of the rest. -/
theorem forall_sigma_cons {holds : List Char → List Char → Prop} {c : Char} {text : List Char} :
    (∀ init rest, c :: text = init ++ 'Σ' :: rest → holds init rest) ↔
      (c = 'Σ' → holds [] text) ∧
        ∀ init rest, text = init ++ 'Σ' :: rest → holds (c :: init) rest := by
  constructor
  · intro all
    refine ⟨fun sigma => all [] text ?_, fun init rest parts => all (c :: init) rest ?_⟩
    · rw [sigma, List.nil_append]
    · rw [parts, List.cons_append]
  · rintro ⟨first, later⟩ init rest parts
    rcases List.cons_eq_append_iff.mp parts with ⟨rfl, own⟩ | ⟨tail, rfl, own⟩
    · cases own
      exact first rfl
    · exact later tail rest own

/-- Two ways to lower a text agree if they agree on each capital sigma. -/
theorem lowerBetween_eq_iff (before after other otherAfter text : List Char) :
    lowerBetween before after text = lowerBetween other otherAfter text ↔
      ∀ init rest, text = init ++ 'Σ' :: rest →
        lowerSigma (init.reverse ++ before) (rest ++ after) =
          lowerSigma (init.reverse ++ other) (rest ++ otherAfter) := by
  induction text generalizing before other with
  | nil => simp [lowerBetween]
  | cons c rest ih =>
    rw [forall_sigma_cons, lowerBetween, lowerBetween]
    simp only [List.reverse_cons, List.append_assoc, List.singleton_append]
    rw [← ih (c :: before) (c :: other)]
    by_cases sigma : c = 'Σ'
    · rw [if_pos sigma, if_pos sigma, List.singleton_append, List.singleton_append, List.cons.injEq]
      exact and_congr_left' ⟨fun same _ => same, fun same => same sigma⟩
    · rw [if_neg sigma, if_neg sigma, List.append_right_inj]
      exact (and_iff_right fun own => absurd own sigma).symm

theorem lowerBetween_eq_lowerCase_iff (before text after : List Char) :
    lowerBetween before after text = lowerCase text ↔ ¬ SigmaChanges before text after := by
  rw [lowerCase, lowerFrom_eq_lowerBetween, lowerBetween_eq_iff, SigmaChanges]
  push Not
  simp only [List.append_nil]

theorem lowerCase_infix {before text after : List Char}
    (kept : ¬ SigmaChanges before.reverse text after) :
    lowerCase text <:+: lowerCase (before ++ text ++ after) := by
  rw [lowerCase_append, (lowerBetween_eq_lowerCase_iff ..).mpr kept]
  exact List.infix_append ..

/-- What a text starts with its lower case starts with, unless a sigma changes. -/
theorem lowerCase_prefix_iff (text after : List Char) :
    lowerCase text <+: lowerCase (text ++ after) ↔ ¬ SigmaChanges [] text after := by
  have length : (lowerCase text).length = (lowerBetween [] after text).length := by
    rw [lowerCase, lowerFrom_eq_lowerBetween]
    exact length_lowerBetween ..
  have parts : lowerCase (text ++ after) =
      lowerBetween [] after text ++ lowerFrom text.reverse after := by
    rw [lowerCase, lowerFrom_append, List.append_nil]
  rw [← lowerBetween_eq_lowerCase_iff, parts]
  constructor
  · intro starts
    have within : lowerCase text <+: lowerBetween [] after text :=
      List.prefix_of_prefix_length_le starts (List.prefix_append ..) (Nat.le_of_eq length)
    exact (within.eq_of_length length).symm
  · intro same
    rw [same]
    exact List.prefix_append ..

/-- What a text ends with its lower case ends with, unless a sigma changes. -/
theorem lowerCase_suffix_iff (before text : List Char) :
    lowerCase text <:+ lowerCase (before ++ text) ↔ ¬ SigmaChanges before.reverse text [] := by
  have length : (lowerCase text).length = (lowerBetween before.reverse [] text).length := by
    rw [lowerCase, lowerFrom_eq_lowerBetween]
    exact length_lowerBetween ..
  have parts : lowerCase (before ++ text) =
      lowerBetween [] text before ++ lowerBetween before.reverse [] text := by
    rw [lowerCase, lowerFrom_append, List.append_nil, lowerFrom_eq_lowerBetween]
  rw [← lowerBetween_eq_lowerCase_iff, parts]
  constructor
  · intro ends
    have within : lowerCase text <:+ lowerBetween before.reverse [] text :=
      List.suffix_of_suffix_length_le ends (List.suffix_append ..) (Nat.le_of_eq length)
    exact (within.eq_of_length length).symm
  · intro same
    rw [same]
    exact List.suffix_append ..

theorem not_sigmaChanges_of_not_mem {text : List Char} (none : 'Σ' ∉ text)
    (before after : List Char) : ¬ SigmaChanges before text after := by
  rintro ⟨init, rest, rfl, -⟩
  exact none (List.mem_append_right init List.mem_cons_self)

/-- Where no letter comes next behind a text, none does so because of the text. -/
theorem meetsCased_append {text : List Char} (none : meetsCased text = false) (init : List Char) :
    meetsCased (init ++ text) = meetsCased init := by
  unfold meetsCased at none ⊢
  rw [List.dropWhile_append]
  cases init.dropWhile (inRanges caseIgnorable) with
  | nil => exact none
  | cons c rest => rfl

/-- A text that no letters stand next to is lowered as by itself. -/
theorem not_sigmaChanges_of_apart {before after : List Char}
    (noneBefore : meetsCased before = false) (noneAfter : meetsCased after = false)
    (text : List Char) : ¬ SigmaChanges before text after := by
  rintro ⟨init, rest, -, changes⟩
  rw [lowerSigma, lowerSigma, meetsCased_append noneBefore, meetsCased_append noneAfter] at changes
  exact changes rfl

end Scim.Text
