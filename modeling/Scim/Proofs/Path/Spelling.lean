import Scim.Proofs.Path.Grammar
import Scim.Proofs.Path.Respelling
import Scim.Proofs.Text.Literals

/-! The spellings of a string between double quotes. Every character may stand for itself or be
written as an escape, and a literal is read as the one string that it spells. -/
namespace Scim
namespace Text

def SpellsCode (digits : List Char) (code : Nat) : Prop :=
  code < 0x10000 ∧ digits.map Char.toLower =
    [code / 0x1000, code / 0x100, code / 0x10, code].map fun n => Nat.digitChar (n % 16)

theorem hexDigit?_toLower (c : Char) : hexDigit? c.toLower = hexDigit? c := by
  induction c using toLower_induct with
  | capital code low high => interval_cases code <;> decide
  | kept c same => rw [same]

theorem hexDigit?_digitChar {n : Nat} (small : n < 16) : hexDigit? (Nat.digitChar n) = some n := by
  interval_cases n <;> decide

theorem lt_of_hexDigit? {c : Char} {n : Nat} (digit : hexDigit? c = some n) : c.toNat < 103 := by
  have below (last : Char) (less : c ≤ last) (bound : last.toNat < 103) : c.toNat < 103 :=
    Nat.lt_of_le_of_lt (UInt32.le_iff_toNat_le.mp less) bound
  rw [hexDigit?] at digit
  split at digit
  next decimal =>
    simp only [Char.isDigit, Bool.and_eq_true, decide_eq_true_eq] at decimal
    exact below '9' decimal.2 (by decide)
  split at digit
  next small => exact below 'f' small.2 (by decide)
  split at digit
  next capital => exact below 'F' capital.2 (by decide)
  next => cases digit

theorem hexDigit?_eq_some_iff {c : Char} {n : Nat} :
    hexDigit? c = some n ↔ n < 16 ∧ c.toLower = Nat.digitChar n := by
  constructor
  · intro digit
    have low : ∀ code < 103, ∀ n ∈ hexDigit? (Char.ofNat code),
        n < 16 ∧ (Char.ofNat code).toLower = Nat.digitChar n := by decide +kernel
    have found := low c.toNat (lt_of_hexDigit? digit)
    rw [Char.ofNat_toNat] at found
    exact found n digit
  · rintro ⟨small, lowered⟩
    rw [← hexDigit?_toLower, lowered, hexDigit?_digitChar small]

/-- Four digits are read as the code that they spell. -/
theorem reading_takeHex4_iff {text rest : List Char} {code : Nat} :
    reading (takeHex4 text) = .ok (code, rest) ↔
      ∃ digits, text = digits ++ rest ∧ SpellsCode digits code := by
  rw [reading_takeHex4_eq_ok]
  constructor
  · rintro ⟨a, b, c, d, p, q, r, s, rfl, first, second, third, fourth, rfl⟩
    obtain ⟨pSmall, first⟩ := hexDigit?_eq_some_iff.mp first
    obtain ⟨qSmall, second⟩ := hexDigit?_eq_some_iff.mp second
    obtain ⟨rSmall, third⟩ := hexDigit?_eq_some_iff.mp third
    obtain ⟨sSmall, fourth⟩ := hexDigit?_eq_some_iff.mp fourth
    refine ⟨[a, b, c, d], rfl, by omega, ?_⟩
    simp only [List.map_cons, List.map_nil, first, second, third, fourth, List.cons.injEq,
      and_true]
    refine ⟨congrArg _ ?_, congrArg _ ?_, congrArg _ ?_, congrArg _ ?_⟩ <;> omega
  · rintro ⟨digits, rfl, bounded, lowered⟩
    obtain ⟨a, b, c, d, rfl⟩ : ∃ a b c d, digits = [a, b, c, d] := by
      have length := congrArg List.length lowered
      simp only [List.length_map, List.length_cons, List.length_nil] at length
      exact List.length_eq_four.mp length
    simp only [List.map_cons, List.map_nil, List.cons.injEq, and_true] at lowered
    obtain ⟨first, second, third, fourth⟩ := lowered
    have digit {c : Char} {n : Nat} (same : c.toLower = Nat.digitChar (n % 16)) :
        hexDigit? c = some (n % 16) :=
      hexDigit?_eq_some_iff.mpr ⟨Nat.mod_lt n (by decide), same⟩
    exact ⟨a, b, c, d, _, _, _, _, rfl, digit first, digit second, digit third, digit fourth,
      by omega⟩

def Digitless (text : List Char) : Prop :=
  ∀ digits after code, text = digits ++ after → ¬ SpellsCode digits code

theorem takeHex4_error {text : List Char} {fault : Fault} (refused : takeHex4 text = .error fault) :
    fault = ⟨.invalidEscape, text⟩ ∧ Digitless text := by
  constructor
  · unfold takeHex4 at refused
    split at refused
    next =>
      split at refused
      next => cases refused
      next => cases refused; rfl
    next => cases refused; rfl
  · intro digits after code parts spelled
    have read := reading_takeHex4_iff.mpr ⟨digits, parts, spelled⟩
    rw [refused] at read
    cases read

theorem takeHex4_digitless {text : List Char} (none : Digitless text) :
    takeHex4 text = .error ⟨.invalidEscape, text⟩ := by
  cases read : takeHex4 text with
  | error fault => rw [(takeHex4_error read).1]
  | ok taken =>
    obtain ⟨digits, parts, spelled⟩ :=
      reading_takeHex4_iff.mp (reading_eq_ok.mpr ⟨taken.shorter, read⟩)
    exact absurd spelled (none digits _ _ parts)

def shortEscapes : List (Char × Char) :=
  [('"', '"'), ('\\', '\\'), ('/', '/'), ('b', '\x08'), ('f', '\x0c'), ('n', '\n'), ('r', '\r'),
    ('t', '\t')]

/-- What stands for one character in a literal. A character outside the basic plane is a pair of
codes, of which the first, the high surrogate, has its upper ten bits. -/
inductive SpellsChar : List Char → Char → Prop where
  | plain {c : Char} (noQuote : c ≠ '"') (noBackslash : c ≠ '\\') : SpellsChar [c] c
  | short {mark c : Char} (listed : (mark, c) ∈ shortEscapes) : SpellsChar ['\\', mark] c
  | code {digits : List Char} {c : Char} (spelled : SpellsCode digits c.toNat) :
    SpellsChar ('\\' :: 'u' :: digits) c
  | pair {first second : List Char} {c : Char} (outside : 0x10000 ≤ c.toNat)
    (high : SpellsCode first (0xD800 + (c.toNat - 0x10000) / 0x400))
    (low : SpellsCode second (0xDC00 + (c.toNat - 0x10000) % 0x400)) :
    SpellsChar ('\\' :: 'u' :: (first ++ '\\' :: 'u' :: second)) c

/-- What stands behind a backslash where no escape does: nothing, an unknown mark, too few digits,
or a surrogate without the other half of its pair. -/
inductive Defective : List Char → Prop where
  | cut : Defective []
  | unknown {mark : Char} {rest : List Char} (notUnicode : mark ≠ 'u')
    (unlisted : ∀ c, (mark, c) ∉ shortEscapes) : Defective (mark :: rest)
  | digitless {rest : List Char} (none : Digitless rest) : Defective ('u' :: rest)
  | low {digits rest : List Char} {code : Nat} (spelled : SpellsCode digits code)
    (isLow : 0xDC00 ≤ code ∧ code < 0xE000) : Defective ('u' :: (digits ++ rest))
  | unpaired {digits rest : List Char} {code : Nat} (spelled : SpellsCode digits code)
    (isHigh : 0xD800 ≤ code ∧ code < 0xDC00) (alone : ¬ ['\\', 'u'] <+: rest) :
    Defective ('u' :: (digits ++ rest))
  | pairedDigitless {digits rest : List Char} {code : Nat} (spelled : SpellsCode digits code)
    (isHigh : 0xD800 ≤ code ∧ code < 0xDC00) (none : Digitless rest) :
    Defective ('u' :: (digits ++ '\\' :: 'u' :: rest))
  | mispaired {digits others rest : List Char} {code other : Nat} (spelled : SpellsCode digits code)
    (isHigh : 0xD800 ≤ code ∧ code < 0xDC00) (next : SpellsCode others other)
    (notLow : ¬ (0xDC00 ≤ other ∧ other < 0xE000)) :
    Defective ('u' :: (digits ++ '\\' :: 'u' :: (others ++ rest)))

theorem shortEscape?_eq_some_iff {mark c : Char} :
    shortEscape? mark = some c ↔ (mark, c) ∈ shortEscapes := by
  unfold shortEscape?
  split <;> simp_all [shortEscapes, eq_comm]

theorem isHighSurrogate_iff (code : Nat) :
    isHighSurrogate code = true ↔ 0xD800 ≤ code ∧ code < 0xDC00 := by simp [isHighSurrogate]

theorem isLowSurrogate_iff (code : Nat) :
    isLowSurrogate code = true ↔ 0xDC00 ≤ code ∧ code < 0xE000 := by simp [isLowSurrogate]

theorem toNat_ofNat_of_valid {code : Nat}
    (valid : code < 0xD800 ∨ 0xE000 ≤ code ∧ code < 0x110000) : (Char.ofNat code).toNat = code := by
  have isValid : code.isValidChar := by
    rcases valid with low | ⟨above, below⟩
    · exact .inl low
    · exact .inr ⟨by omega, below⟩
  rw [Char.ofNat, dif_pos isValid]
  rfl

theorem valid_toNat (c : Char) : c.toNat < 0xD800 ∨ 0xE000 ≤ c.toNat ∧ c.toNat < 0x110000 := by
  rcases c.valid with low | ⟨above, below⟩
  · exact .inl low
  · exact .inr ⟨above, below⟩

section

variable {digits rest : List Char} {code : Nat} (spelled : SpellsCode digits code)

include spelled

theorem reading_takeHex4_spelled (rest : List Char) :
    reading (takeHex4 (digits ++ rest)) = .ok (code, rest) :=
  reading_takeHex4_iff.mpr ⟨digits, rfl, spelled⟩

theorem reading_takeUnicode_single (rest : List Char)
    (single : ¬ (0xD800 ≤ code ∧ code < 0xE000)) :
    reading (takeUnicode (digits ++ rest)) = .ok (Char.ofNat code, rest) := by
  have high : isHighSurrogate code = false := by simp [isHighSurrogate]; omega
  have low : isLowSurrogate code = false := by simp [isLowSurrogate]; omega
  rw [reading_takeUnicode, reading_takeHex4_spelled spelled]
  simp only [bind, Except.bind, high, low, Bool.false_eq_true, if_false]

theorem reading_takeUnicode_low (rest : List Char) (isLow : 0xDC00 ≤ code ∧ code < 0xE000) :
    reading (takeUnicode (digits ++ rest)) = .error ⟨.invalidEscape, rest⟩ := by
  have high : isHighSurrogate code = false := by simp [isHighSurrogate]; omega
  have low : isLowSurrogate code = true := (isLowSurrogate_iff code).mpr isLow
  rw [reading_takeUnicode, reading_takeHex4_spelled spelled]
  simp only [bind, Except.bind, high, low, Bool.false_eq_true, if_false, if_true]

theorem reading_takeUnicode_unpaired (isHigh : 0xD800 ≤ code ∧ code < 0xDC00)
    (alone : ¬ ['\\', 'u'] <+: rest) :
    reading (takeUnicode (digits ++ rest)) = .error ⟨.invalidEscape, rest⟩ := by
  rw [reading_takeUnicode, reading_takeHex4_spelled spelled]
  simp only [bind, Except.bind, (isHighSurrogate_iff code).mpr isHigh, if_true]
  split
  next second => exact absurd ⟨second, rfl⟩ alone
  next => rfl

/-- Behind a high surrogate a second code is read, which must be a low one. -/
theorem reading_takeUnicode_paired (isHigh : 0xD800 ≤ code ∧ code < 0xDC00) (second : List Char) :
    reading (takeUnicode (digits ++ '\\' :: 'u' :: second)) = (do
      let (low, rest) ← reading (takeHex4 second)
      if isLowSurrogate low then
        .ok (Char.ofNat (0x10000 + (code - 0xD800) * 0x400 + (low - 0xDC00)), rest)
      else .error ⟨.invalidEscape, rest⟩) := by
  rw [reading_takeUnicode, reading_takeHex4_spelled spelled]
  simp only [bind, Except.bind, (isHighSurrogate_iff code).mpr isHigh, if_true]

end

/-- A high surrogate and a low one are read as the character that they encode. -/
theorem reading_takeUnicode_pair {first second : List Char} {high low : Nat}
    (spelled : SpellsCode first high) (isHigh : 0xD800 ≤ high ∧ high < 0xDC00)
    (next : SpellsCode second low) (isLow : 0xDC00 ≤ low ∧ low < 0xE000) (rest : List Char) :
    reading (takeUnicode (first ++ '\\' :: 'u' :: (second ++ rest))) =
      .ok (Char.ofNat (0x10000 + (high - 0xD800) * 0x400 + (low - 0xDC00)), rest) := by
  rw [reading_takeUnicode_paired spelled isHigh, reading_takeHex4_spelled next]
  simp only [bind, Except.bind, (isLowSurrogate_iff low).mpr isLow, if_true]

/-- An escape is read as the character that it spells. -/
theorem reading_takeEscape_spelled {item : List Char} {c : Char}
    (spells : SpellsChar ('\\' :: item) c) (rest : List Char) :
    reading (takeEscape (item ++ rest)) = .ok (c, rest) := by
  cases spells with
  | plain _ noBackslash => exact absurd rfl noBackslash
  | @short mark _ listed =>
    have notUnicode : mark ≠ 'u' := by
      rintro rfl
      simp [shortEscapes] at listed
    exact reading_takeEscape_short rest notUnicode (shortEscape?_eq_some_iff.mpr listed)
  | code spelled =>
    have valid := valid_toNat c
    rw [List.cons_append, reading_takeEscape_unicode,
      reading_takeUnicode_single spelled rest (by omega), Char.ofNat_toNat]
  | pair outside high low =>
    have valid := valid_toNat c
    have code : 0x10000 + (0xD800 + (c.toNat - 0x10000) / 0x400 - 0xD800) * 0x400 +
        (0xDC00 + (c.toNat - 0x10000) % 0x400 - 0xDC00) = c.toNat := by omega
    rw [List.cons_append, List.append_assoc, List.cons_append, List.cons_append,
      reading_takeEscape_unicode,
      reading_takeUnicode_pair high (by omega) low (by omega), code, Char.ofNat_toNat]

theorem reading_takeEscape_defective {text : List Char} (defective : Defective text) :
    ∃ rest, reading (takeEscape text) = .error ⟨.invalidEscape, rest⟩ := by
  cases defective with
  | cut => exact ⟨[], rfl⟩
  | @unknown mark rest notUnicode unlisted =>
    have absent : shortEscape? mark = none := Option.eq_none_iff_forall_ne_some.mpr fun c found =>
      unlisted c (shortEscape?_eq_some_iff.mp found)
    exact ⟨_, by rw [takeEscape_refused rest notUnicode absent, reading_error]⟩
  | @digitless rest none =>
    refine ⟨rest, ?_⟩
    rw [reading_takeEscape_unicode, reading_takeUnicode, takeHex4_digitless none]
    rfl
  | @low digits rest code spelled isLow =>
    exact ⟨rest, by rw [reading_takeEscape_unicode, reading_takeUnicode_low spelled rest isLow]⟩
  | @unpaired digits rest code spelled isHigh alone =>
    exact ⟨rest, by
      rw [reading_takeEscape_unicode, reading_takeUnicode_unpaired spelled isHigh alone]⟩
  | @pairedDigitless digits rest code spelled isHigh none =>
    refine ⟨rest, ?_⟩
    rw [reading_takeEscape_unicode, reading_takeUnicode_paired spelled isHigh,
      takeHex4_digitless none]
    rfl
  | @mispaired digits others rest code other spelled isHigh next notLow =>
    have refused : isLowSurrogate other = false :=
      Bool.eq_false_iff.mpr (mt (isLowSurrogate_iff other).mp notLow)
    refine ⟨rest, ?_⟩
    rw [reading_takeEscape_unicode, reading_takeUnicode_paired spelled isHigh,
      reading_takeHex4_spelled next]
    simp only [bind, Except.bind, refused, Bool.false_eq_true, if_false]

theorem SpellsChar.surrogates {first second : List Char} {high low : Nat}
    (spelled : SpellsCode first high) (isHigh : 0xD800 ≤ high ∧ high < 0xDC00)
    (next : SpellsCode second low) (isLow : 0xDC00 ≤ low ∧ low < 0xE000) :
    SpellsChar ('\\' :: 'u' :: (first ++ '\\' :: 'u' :: second))
      (Char.ofNat (0x10000 + (high - 0xD800) * 0x400 + (low - 0xDC00))) := by
  generalize whole : 0x10000 + (high - 0xD800) * 0x400 + (low - 0xDC00) = code
  have same : (Char.ofNat code).toNat = code := toNat_ofNat_of_valid (by omega)
  have upper : 0xD800 + (code - 0x10000) / 0x400 = high := by omega
  have lower : 0xDC00 + (code - 0x10000) % 0x400 = low := by omega
  exact .pair (by omega) (by rwa [same, upper]) (by rwa [same, lower])

theorem digitless_or_spelled (text : List Char) :
    Digitless text ∨ ∃ digits after code, text = digits ++ after ∧ SpellsCode digits code := by
  by_cases none : Digitless text
  · exact .inl none
  · simp only [Digitless, not_forall, not_not] at none
    obtain ⟨digits, after, code, parts, spelled⟩ := none
    exact .inr ⟨digits, after, code, parts, spelled⟩

/-- A high surrogate needs a low one behind it. -/
theorem paired_or_defective {digits : List Char} {code : Nat} (spelled : SpellsCode digits code)
    (isHigh : 0xD800 ≤ code ∧ code < 0xDC00) (after : List Char) :
    (∃ second low rest, after = '\\' :: 'u' :: (second ++ rest) ∧ SpellsCode second low ∧
      0xDC00 ≤ low ∧ low < 0xE000) ∨ Defective ('u' :: (digits ++ after)) := by
  by_cases paired : ['\\', 'u'] <+: after
  · obtain ⟨second, rfl⟩ := paired
    rcases digitless_or_spelled second with none | ⟨others, last, low, rfl, next⟩
    · exact .inr (.pairedDigitless spelled isHigh none)
    · by_cases isLow : 0xDC00 ≤ low ∧ low < 0xE000
      · exact .inl ⟨others, low, last, rfl, next, isLow⟩
      · have defect : Defective ('u' :: (digits ++ '\\' :: 'u' :: (others ++ last))) :=
          .mispaired spelled isHigh next isLow
        exact .inr defect
  · exact .inr (.unpaired spelled isHigh paired)

theorem code_spelled_or_defective (text : List Char) :
    (∃ item c rest, text = item ++ rest ∧ SpellsChar ('\\' :: 'u' :: item) c) ∨
      Defective ('u' :: text) := by
  rcases digitless_or_spelled text with none | ⟨digits, after, code, rfl, spelled⟩
  · exact .inr (.digitless none)
  · have bounded := spelled.1
    by_cases single : ¬ (0xD800 ≤ code ∧ code < 0xE000)
    · have same : (Char.ofNat code).toNat = code := toNat_ofNat_of_valid (by omega)
      exact .inl ⟨digits, Char.ofNat code, after, rfl, .code (by rwa [same])⟩
    · by_cases isHigh : 0xD800 ≤ code ∧ code < 0xDC00
      · rcases paired_or_defective spelled isHigh after with
          ⟨second, low, rest, rfl, next, isLow⟩ | defective
        · exact .inl ⟨_, _, rest, by simp, .surrogates spelled isHigh next isLow⟩
        · exact .inr defective
      · exact .inr (.low spelled (by omega))

/-- Behind a backslash an escape goes on or it does not. -/
theorem spelled_or_defective (text : List Char) :
    (∃ item c rest, text = item ++ rest ∧ SpellsChar ('\\' :: item) c) ∨ Defective text := by
  cases text with
  | nil => exact .inr .cut
  | cons mark rest =>
    by_cases unicode : mark = 'u'
    · subst unicode
      rcases code_spelled_or_defective rest with ⟨item, c, last, rfl, spells⟩ | defective
      · exact .inl ⟨'u' :: item, c, last, rfl, spells⟩
      · exact .inr defective
    · by_cases listed : ∃ c, (mark, c) ∈ shortEscapes
      · obtain ⟨c, listed⟩ := listed
        exact .inl ⟨[mark], c, rest, rfl, .short listed⟩
      · exact .inr (.unknown unicode (not_exists.mp listed))

/-- The characters of a literal up to its closing quote, with the string that they spell. -/
inductive Spells : List Char → List Char → Prop where
  | nil : Spells [] []
  | cons {item body : List Char} {c : Char} {chars : List Char} (first : SpellsChar item c)
    (rest : Spells body chars) : Spells (item ++ body) (c :: chars)

theorem reading_takeStringBody_item (opening : List Char) {item : List Char} {c : Char}
    (spells : SpellsChar item c) (rest : List Char) :
    reading (takeStringBody opening (item ++ rest)) = (do
      let (tail, last) ← reading (takeStringBody opening rest)
      .ok (c :: tail, last)) := by
  have escaped {escape : List Char} (spells : SpellsChar ('\\' :: escape) c) :
      reading (takeStringBody opening ('\\' :: (escape ++ rest))) = (do
        let (tail, last) ← reading (takeStringBody opening rest)
        .ok (c :: tail, last)) := by
    rw [reading_takeStringBody_escape, reading_takeEscape_spelled spells]
    rfl
  cases spells with
  | plain noQuote noBackslash => exact reading_takeStringBody_plain _ _ noQuote noBackslash
  | short listed => exact escaped (.short listed)
  | code spelled => exact escaped (.code spelled)
  | pair outside high low => exact escaped (.pair outside high low)

/-- What spells a string is read as it, whatever follows. -/
theorem reading_takeStringBody_spelled (opening : List Char) {body chars : List Char}
    (spells : Spells body chars) (after : List Char) :
    reading (takeStringBody opening (body ++ after)) = (do
      let (tail, rest) ← reading (takeStringBody opening after)
      .ok (chars ++ tail, rest)) := by
  induction spells with
  | nil =>
    rw [List.nil_append]
    cases takeStringBody opening after <;> rfl
  | cons first _ ih =>
    rw [List.append_assoc, reading_takeStringBody_item opening first, ih]
    cases takeStringBody opening after <;> rfl

/-- A text spells a string up to a quote, its end or a defect. -/
theorem literal_cases (text : List Char) : ∃ body chars after, text = body ++ after ∧
    Spells body chars ∧ (after = [] ∨ (∃ rest, after = '"' :: rest) ∨
      ∃ rest, after = '\\' :: rest ∧ Defective rest) := by
  induction h : text.length using Nat.strong_induction_on generalizing text with
  | _ length ih =>
  subst h
  have spelled {item rest : List Char} {c : Char} (first : SpellsChar item c)
      (parts : text = item ++ rest) (nonempty : item ≠ []) : ∃ body chars after,
      text = body ++ after ∧ Spells body chars ∧ (after = [] ∨ (∃ rest, after = '"' :: rest) ∨
        ∃ rest, after = '\\' :: rest ∧ Defective rest) := by
    have length := List.length_pos_iff.mpr nonempty
    obtain ⟨body, chars, after, rfl, others, ends⟩ :=
      ih rest.length (by rw [parts, List.length_append]; omega) rest rfl
    exact ⟨item ++ body, c :: chars, after, by rw [parts, List.append_assoc],
      .cons first others, ends⟩
  cases text with
  | nil => exact ⟨[], [], [], rfl, .nil, .inl rfl⟩
  | cons c rest =>
    by_cases quote : c = '"'
    · exact ⟨[], [], c :: rest, rfl, .nil, .inr (.inl ⟨rest, by rw [quote]⟩)⟩
    · by_cases backslash : c = '\\'
      · subst backslash
        rcases spelled_or_defective rest with ⟨item, meant, last, rfl, first⟩ | defective
        · exact spelled first rfl (List.cons_ne_nil _ _)
        · exact ⟨[], [], _, rfl, .nil, .inr (.inr ⟨rest, rfl, defective⟩)⟩
      · exact spelled (.plain quote backslash) rfl (List.cons_ne_nil _ _)

end Text

namespace Filter

open Text

section

variable {body chars : List Char} (spells : Spells body chars)

include spells

theorem takeLiteral_closed (rest : List Char) :
    reading (takeLiteral ('"' :: (body ++ '"' :: rest))) =
      .ok (.string (String.ofList chars), rest) := by
  rw [reading_takeLiteral_quote, reading_takeStringBody_spelled _ spells,
    reading_takeStringBody_quote]
  simp [bind, Except.bind]

theorem takeLiteral_unclosed :
    reading (takeLiteral ('"' :: body)) = .error ⟨.unclosedString, '"' :: body⟩ := by
  have read := reading_takeStringBody_spelled ('"' :: body) spells []
  rw [List.append_nil, takeStringBody] at read
  rw [reading_takeLiteral_quote, read]
  rfl

theorem takeLiteral_defective {rest : List Char} (defective : Defective rest) :
    ∃ left, reading (takeLiteral ('"' :: (body ++ '\\' :: rest))) =
      .error ⟨.invalidEscape, left⟩ := by
  obtain ⟨left, refused⟩ := reading_takeEscape_defective defective
  refine ⟨left, ?_⟩
  rw [reading_takeLiteral_quote, reading_takeStringBody_spelled _ spells,
    reading_takeStringBody_escape, refused]
  rfl

end

/-- A literal ends in one of three ways, and in each its outcome is known. -/
theorem takeLiteral_outcome (text : List Char) : ∃ body chars, Spells body chars ∧
    (text = body ∧ reading (takeLiteral ('"' :: text)) = .error ⟨.unclosedString, '"' :: text⟩ ∨
      (∃ rest, text = body ++ '"' :: rest ∧
        reading (takeLiteral ('"' :: text)) = .ok (.string (String.ofList chars), rest)) ∨
      ∃ rest left, text = body ++ '\\' :: rest ∧ Defective rest ∧
        reading (takeLiteral ('"' :: text)) = .error ⟨.invalidEscape, left⟩) := by
  obtain ⟨body, chars, after, rfl, spells, rfl | ⟨rest, rfl⟩ | ⟨rest, rfl, defective⟩⟩ :=
    literal_cases text
  · rw [List.append_nil]
    exact ⟨body, chars, spells, .inl ⟨rfl, takeLiteral_unclosed spells⟩⟩
  · exact ⟨body, chars, spells, .inr (.inl ⟨rest, rfl, takeLiteral_closed spells rest⟩)⟩
  · obtain ⟨left, refused⟩ := takeLiteral_defective spells defective
    exact ⟨body, chars, spells, .inr (.inr ⟨rest, left, rfl, defective, refused⟩)⟩

/-- **A string literal is read as what it spells and is refused where it spells nothing**: at its
opening quote if nothing is wrong but that it is not closed. -/
theorem takeLiteral_quoted (text : List Char) :
    (∀ value rest, reading (takeLiteral ('"' :: text)) = .ok (value, rest) ↔
      ∃ body chars, text = body ++ '"' :: rest ∧ Spells body chars ∧
        value = .string (String.ofList chars)) ∧
    (reading (takeLiteral ('"' :: text)) = .error ⟨.unclosedString, '"' :: text⟩ ↔
      ∃ chars, Spells text chars) ∧
    ((∃ rest, reading (takeLiteral ('"' :: text)) = .error ⟨.invalidEscape, rest⟩) ↔
      ∃ body chars rest, text = body ++ '\\' :: rest ∧ Spells body chars ∧ Defective rest) := by
  obtain ⟨body, chars, spells, outcome⟩ := takeLiteral_outcome text
  refine ⟨fun value rest => ⟨fun read => ?_, ?_⟩, ⟨fun read => ?_, ?_⟩, ⟨fun read => ?_, ?_⟩⟩
  · rcases outcome with ⟨_, outcome⟩ | ⟨_, parts, outcome⟩ | ⟨_, _, _, _, outcome⟩
    · cases read.symm.trans outcome
    · cases read.symm.trans outcome
      exact ⟨body, chars, parts, spells, rfl⟩
    · cases read.symm.trans outcome
  · rintro ⟨body, chars, rfl, spells, rfl⟩
    exact takeLiteral_closed spells rest
  · rcases outcome with ⟨rfl, _⟩ | ⟨_, _, outcome⟩ | ⟨_, _, _, _, outcome⟩
    · exact ⟨chars, spells⟩
    · cases read.symm.trans outcome
    · cases read.symm.trans outcome
  · rintro ⟨chars, spells⟩
    exact takeLiteral_unclosed spells
  · obtain ⟨_, read⟩ := read
    rcases outcome with ⟨_, outcome⟩ | ⟨_, _, outcome⟩ | ⟨rest, _, parts, defective, _⟩
    · cases read.symm.trans outcome
    · cases read.symm.trans outcome
    · exact ⟨body, chars, rest, parts, spells, defective⟩
  · rintro ⟨body, chars, rest, rfl, spells, defective⟩
    exact takeLiteral_defective spells defective

/-- Two surrogates are one character of the value. -/
example : parse "a eq \"\\uD83d\\ude00\"" =
    .ok (.compare ⟨none, [⟨"a", none⟩]⟩ .equal (.string "😀")) := by decide +kernel

end Filter
end Scim
