import Mathlib.Data.List.Basic
import Mathlib.Data.List.TakeWhile
import Scim.Path.Parser

/-! Readers without the length proofs their results carry: what was read and what is left, as a
plain pair. Every reader of the grammar has one equation in this form. -/
namespace Scim

variable {α β : Type} {text longer : List Char}

namespace Taken

def pair (taken : Taken α text) : α × List Char := (taken.value, taken.rest)

@[simp] theorem pair_map (f : α → β) (taken : Taken α text) :
    (taken.map f).pair = (f taken.value, taken.rest) := rfl

@[simp] theorem pair_widen (taken : Taken α text) (h : text.length ≤ longer.length) :
    (taken.widen h).pair = taken.pair := rfl

@[simp] theorem pair_behind {c : Char} (taken : Taken α text) :
    (taken.behind (c := c)).pair = taken.pair := rfl

@[simp] theorem pair_ofHead {c : Char} (value : α) :
    (ofHead value : Taken α (c :: text)).pair = (value, text) := rfl

end Taken

def Passed.pair (passed : Passed α text) : α × List Char := (passed.value, passed.rest)

def reading (result : Except Fault (Taken α text)) : Except Fault (α × List Char) :=
  result.map Taken.pair

def readingOption (result : Except Fault (Option (Taken α text))) :
    Except Fault (Option α × List Char) :=
  result.map fun taken => (taken.map (·.value), Taken.remaining taken)

def passing (result : Except Fault (Passed α text)) : Except Fault (α × List Char) :=
  result.map Passed.pair

@[simp] theorem reading_ok (taken : Taken α text) :
    reading (.ok taken : Except Fault (Taken α text)) = .ok (taken.value, taken.rest) := rfl

@[simp] theorem reading_error (fault : Fault) :
    reading (.error fault : Except Fault (Taken α text)) = .error fault := rfl

@[simp] theorem readingOption_error (fault : Fault) :
    readingOption (.error fault : Except Fault (Option (Taken α text))) = .error fault := rfl

@[simp] theorem readingOption_none :
    readingOption (.ok none : Except Fault (Option (Taken α text))) = .ok (none, text) := rfl

@[simp] theorem readingOption_some (taken : Taken α text) :
    readingOption (.ok (some taken) : Except Fault (Option (Taken α text))) =
      .ok (some taken.value, taken.rest) := rfl

/-- A pair that is read belongs to a result with the proof that the rest is shorter. -/
theorem reading_eq_ok {result : Except Fault (Taken α text)} {value : α} {rest : List Char} :
    reading result = .ok (value, rest) ↔
      ∃ shorter, result = .ok ⟨value, rest, shorter⟩ := by
  constructor
  · intro read
    cases result with
    | error fault => simp at read
    | ok taken =>
      cases read
      exact ⟨taken.shorter, rfl⟩
  · rintro ⟨shorter, rfl⟩
    rfl

theorem length_of_reading {result : Except Fault (Taken α text)} {value : α} {rest : List Char}
    (read : reading result = .ok (value, rest)) : rest.length < text.length := by
  obtain ⟨shorter, _⟩ := reading_eq_ok.mp read
  exact shorter

theorem length_of_readingOption {result : Except Fault (Option (Taken α text))}
    {value : Option α} {rest : List Char} (read : readingOption result = .ok (value, rest)) :
    rest.length ≤ text.length := by
  cases result with
  | error fault => cases read
  | ok taken =>
    cases read
    exact Taken.remaining_length_le taken

/-- Reading on from what is left. -/
theorem reading_bind (result : Except Fault (Taken α text))
    (next : Taken α text → Except Fault (Taken β longer))
    (step : α × List Char → Except Fault (β × List Char))
    (same : ∀ taken, reading (next taken) = step taken.pair) :
    reading (result >>= next) = reading result >>= step := by
  cases result with
  | error fault => rfl
  | ok taken => exact same taken

/-- The outcome of two readings is that of the second. -/
theorem bind_eq_ok {ε : Type} {first : Except ε α} {next : α → Except ε β} {value : β} :
    (first >>= next) = .ok value ↔ ∃ found, first = .ok found ∧ next found = .ok value := by
  cases first with
  | error fault => simp [bind, Except.bind]
  | ok found => simp [bind, Except.bind]

def Stops (p : Char → Bool) (text : List Char) : Prop := ∀ c ∈ text.head?, p c = false

@[simp] theorem stops_nil (p : Char → Bool) : Stops p [] := by simp [Stops]

@[simp] theorem stops_cons (p : Char → Bool) (c : Char) (rest : List Char) :
    Stops p (c :: rest) ↔ p c = false := by simp [Stops]

theorem takeWhile_append_of_stops {p : Char → Bool} {run after : List Char}
    (all : ∀ c ∈ run, p c = true) (stops : Stops p after) :
    (run ++ after).takeWhile p = run := by
  induction run with
  | nil =>
    cases after with
    | nil => rfl
    | cons c rest => simp [(stops_cons p c rest).mp stops]
  | cons c run ih =>
    simp only [List.mem_cons, forall_eq_or_imp] at all
    simp [all.1, ih all.2]

theorem dropWhile_append_of_stops {p : Char → Bool} {run after : List Char}
    (all : ∀ c ∈ run, p c = true) (stops : Stops p after) :
    (run ++ after).dropWhile p = after := by
  have parts := List.takeWhile_append_dropWhile (p := p) (l := run ++ after)
  rw [takeWhile_append_of_stops all stops] at parts
  exact List.append_cancel_left parts

/-- A run in front of something else is taken whole. -/
theorem takeRun_append {p : Char → Bool} {run after : List Char} (nonempty : run ≠ [])
    (all : ∀ c ∈ run, p c = true) (stops : Stops p after) :
    ∃ shorter, takeRun p (run ++ after) = some ⟨run, after, shorter⟩ := by
  have taken := takeWhile_append_of_stops all stops
  have left := dropWhile_append_of_stops all stops
  have some : (run ++ after).takeWhile p ≠ [] := by rwa [taken]
  refine ⟨by simpa [left] using length_dropWhile_lt some, ?_⟩
  rw [takeRun, dif_neg some]
  simp only [taken, left]

theorem stops_dropWhile (p : Char → Bool) (text : List Char) : Stops p (text.dropWhile p) := by
  intro c first
  have := List.head?_dropWhile_not p text
  rw [first] at this
  simpa using this

/-- What a run consists of and what follows it. -/
theorem takeRun_eq_some {p : Char → Bool} {text : List Char} {taken : Taken (List Char) text}
    (found : takeRun p text = some taken) :
    text = taken.value ++ taken.rest ∧ taken.value ≠ [] ∧ (∀ c ∈ taken.value, p c = true) ∧
      Stops p taken.rest := by
  simp only [takeRun] at found
  split at found
  next => simp at found
  next nonempty =>
    cases found
    exact ⟨List.takeWhile_append_dropWhile.symm, nonempty,
      fun c member => List.mem_takeWhile_imp member, stops_dropWhile p text⟩

theorem dropWhile_of_takeRun {p : Char → Bool} {text run rest : List Char}
    (found : (takeRun p text).map Taken.pair = some (run, rest)) : text.dropWhile p = rest := by
  unfold takeRun at found
  split at found
  next => cases found
  next =>
    cases found
    rfl

end Scim
