import Scim.Filter.Selection
import Scim.Schema.Resolution
import Scim.Text.LowerCase

/-! When a filter holds of a JSON value. A comparison holds when some value that its path reaches
satisfies it, so of an absent attribute every comparison is false. Texts compare in lower case
unless the attribute is exact or a point in time, numbers by their value as doubles. -/
namespace Scim

def textOrder (a b : List Char) : Ordering := compareOfLessAndEq a b

def occursIn (part : List Char) : List Char → Bool
  | [] => part.isEmpty
  | c :: rest => part.isPrefixOf (c :: rest) || occursIn part rest

theorem occursIn_iff (part text : List Char) : occursIn part text = true ↔ part <:+: text := by
  induction text with
  | nil => simp [occursIn]
  | cons c rest ih => simp [occursIn, ih, List.infix_cons_iff]

namespace CompareOp

def admits : CompareOp → Ordering → Bool
  | equal, order => order == .eq
  | notEqual, order => order != .eq
  | greater, order => order == .gt
  | greaterEqual, order => order != .lt
  | less, order => order == .lt
  | lessEqual, order => order != .gt
  | contains, _ | startsWith, _ | endsWith, _ | present, _ => false

def holdsOfTexts (op : CompareOp) (actual expected : List Char) : Bool :=
  match op with
  | contains => occursIn expected actual
  | startsWith => expected.isPrefixOf actual
  | endsWith => expected.isSuffixOf actual
  | _ => op.admits (textOrder actual expected)

def holdsOfBools (op : CompareOp) (actual expected : Bool) : Bool :=
  match op with
  | equal => actual == expected
  | notEqual => actual != expected
  | _ => false

/-- The comparison of one value; values of different kinds are unequal and no more. -/
def holds (op : CompareOp) (ignoreCase : Bool) (actual expected : Json) : Bool :=
  match actual, expected with
  | .string a, .string b =>
    if ignoreCase then op.holdsOfTexts (Text.lowerCase a.toList) (Text.lowerCase b.toList)
    else op.holdsOfTexts a.toList b.toList
  | .number a, .number b => op.admits (compare a.units b.units)
  | .bool a, .bool b => op.holdsOfBools a b
  | _, _ => op == notEqual

end CompareOp

/-- The case of texts is ignored unless the attribute, where it is known, says otherwise. -/
def ignoresCase : Option Attribute → Bool
  | some definition => definition.ignoresCase
  | none => true

namespace Filter

def holdsOfAny (op : CompareOp) (ignoreCase : Bool) (expected : Json) (reached : List Json) :
    Bool :=
  match op with
  | .present => !reached.isEmpty
  | _ => reached.any fun actual => op.holds ignoreCase actual expected

def holds (scope : Scope) (fragment : Json) : Filter → Bool
  | .compare path op expected =>
    holdsOfAny op (ignoresCase (scope.find? path)) expected (path.select fragment)
  | .logical .and left right => left.holds scope fragment && right.holds scope fragment
  | .logical .or left right => left.holds scope fragment || right.holds scope fragment
  | .not inner => !inner.holds scope fragment

end Filter
end Scim
