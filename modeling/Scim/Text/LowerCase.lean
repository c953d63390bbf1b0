import Scim.Text.CaseRanges
import Scim.Text.Ranges

/-! The lower case of a text, for comparison without regard to case. Each character is
lowered by itself, apart from the capital sigma, which becomes final at the end of a word. -/
namespace Scim.Text

def lowerRun? (c : Char) : Option LowerRun :=
  lowerRuns.find? fun run =>
    decide (run.first ≤ c.toNat) && decide (c.toNat ≤ run.last) &&
      (c.toNat - run.first) % run.step == 0

/-- One character lowered without regard to its neighbours. The capital I with a dot is the
only one that becomes two characters. -/
def lowerChar (c : Char) : List Char :=
  if c = '\u0130' then ['i', '\u0307']
  else match lowerRun? c with
    | some run => [Char.ofNat (c.toNat + run.offset).toNat]
    | none => [c]

def meetsCased (text : List Char) : Bool :=
  match text.dropWhile (inRanges caseIgnorable) with
  | c :: _ => inRanges cased c
  | [] => false

/-- A capital sigma ends a word when a letter comes before it and none after; `before` is read
backwards. -/
def lowerSigma (before after : List Char) : Char :=
  if meetsCased before && !meetsCased after then 'ς' else 'σ'

/-- Lowers the rest of a text of which `before` has been read, the last character first. -/
def lowerFrom (before : List Char) : List Char → List Char
  | [] => []
  | c :: after =>
    (if c = 'Σ' then [lowerSigma before after] else lowerChar c) ++ lowerFrom (c :: before) after

def lowerCase (text : List Char) : List Char := lowerFrom [] text

end Scim.Text
