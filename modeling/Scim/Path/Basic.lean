import Scim.Json.Basic
import Scim.Text.Caseless

/-! Attribute paths and filters. A segment of a path may select elements by a filter, and a
filter compares values that paths reach, so the two are defined together. -/
namespace Scim

inductive CompareOp where
  | equal
  | notEqual
  | contains
  | startsWith
  | endsWith
  | greater
  | greaterEqual
  | less
  | lessEqual
  | present
  deriving DecidableEq

namespace CompareOp

def word : CompareOp → String
  | equal => "eq"
  | notEqual => "ne"
  | contains => "co"
  | startsWith => "sw"
  | endsWith => "ew"
  | greater => "gt"
  | greaterEqual => "ge"
  | less => "lt"
  | lessEqual => "le"
  | present => "pr"

def all : List CompareOp :=
  [equal, notEqual, contains, startsWith, endsWith, greater, greaterEqual, less, lessEqual,
    present]

def ofWord? (word : String) : Option CompareOp :=
  all.find? fun op => decide (Caseless op.word word)

end CompareOp

inductive LogicalOp where
  | and
  | or
  deriving DecidableEq

namespace LogicalOp

def word : LogicalOp → String
  | and => "and"
  | or => "or"

def ofWord? (word : String) : Option LogicalOp :=
  [and, or].find? fun op => decide (Caseless op.word word)

end LogicalOp

mutual

/-- A comparison with `present` has the value null. -/
inductive Filter where
  | compare (path : Path) (op : CompareOp) (value : Json)
  | logical (op : LogicalOp) (left right : Filter)
  | not (inner : Filter)

structure Segment where
  name : String
  filter : Option Filter

/-- Segments from the root on, within the schema of a URN if one is given. Without segments it
denotes the root itself. -/
structure Path where
  schema : Option String
  segments : List Segment

end

mutual

def Filter.decEq : (a b : Filter) → Decidable (a = b)
  | .compare p op v, b => match b with
    | .compare q op' w =>
      match Path.decEq p q, decEq op op', decEq v w with
      | isTrue hp, isTrue ho, isTrue hv => isTrue (hp ▸ ho ▸ hv ▸ rfl)
      | isFalse hp, _, _ => isFalse fun same => hp (Filter.compare.inj same).1
      | _, isFalse ho, _ => isFalse fun same => ho (Filter.compare.inj same).2.1
      | _, _, isFalse hv => isFalse fun same => hv (Filter.compare.inj same).2.2
    | .logical .. | .not _ => isFalse nofun
  | .logical op l r, b => match b with
    | .logical op' l' r' =>
      match decEq op op', Filter.decEq l l', Filter.decEq r r' with
      | isTrue ho, isTrue hl, isTrue hr => isTrue (ho ▸ hl ▸ hr ▸ rfl)
      | isFalse ho, _, _ => isFalse fun same => ho (Filter.logical.inj same).1
      | _, isFalse hl, _ => isFalse fun same => hl (Filter.logical.inj same).2.1
      | _, _, isFalse hr => isFalse fun same => hr (Filter.logical.inj same).2.2
    | .compare .. | .not _ => isFalse nofun
  | .not f, b => match b with
    | .not g => match Filter.decEq f g with
      | isTrue h => isTrue (h ▸ rfl)
      | isFalse h => isFalse fun same => h (Filter.not.inj same)
    | .compare .. | .logical .. => isFalse nofun

def Segment.decEq : (a b : Segment) → Decidable (a = b)
  | ⟨n, none⟩, ⟨m, none⟩ => decidable_of_iff (n = m) (by simp)
  | ⟨_, none⟩, ⟨_, some _⟩ | ⟨_, some _⟩, ⟨_, none⟩ => isFalse (by simp)
  | ⟨n, some f⟩, ⟨m, some g⟩ =>
    match decEq n m, Filter.decEq f g with
    | isTrue hn, isTrue hf => isTrue (hn ▸ hf ▸ rfl)
    | isFalse hn, _ => isFalse fun same => hn (Segment.mk.inj same).1
    | _, isFalse hf => isFalse fun same => hf (Option.some.inj (Segment.mk.inj same).2)

def Path.decEq : (a b : Path) → Decidable (a = b)
  | ⟨s, segments⟩, ⟨t, others⟩ =>
    match decEq s t, Segment.decEqList segments others with
    | isTrue hs, isTrue h => isTrue (hs ▸ h ▸ rfl)
    | isFalse hs, _ => isFalse fun same => hs (Path.mk.inj same).1
    | _, isFalse h => isFalse fun same => h (Path.mk.inj same).2

def Segment.decEqList : (a b : List Segment) → Decidable (a = b)
  | [], [] => isTrue rfl
  | [], _ :: _ | _ :: _, [] => isFalse nofun
  | a :: as, b :: bs =>
    match Segment.decEq a b, Segment.decEqList as bs with
    | isTrue h, isTrue hs => isTrue (h ▸ hs ▸ rfl)
    | isFalse h, _ => isFalse fun same => h (List.cons.inj same).1
    | _, isFalse hs => isFalse fun same => hs (List.cons.inj same).2

end

instance : DecidableEq Filter := Filter.decEq
instance : DecidableEq Segment := Segment.decEq
instance : DecidableEq Path := Path.decEq

def dotted (names : List String) : String := ".".intercalate names

namespace Path

def root : Path := ⟨none, []⟩

def isRoot (path : Path) : Bool := path.segments.isEmpty

def names (path : Path) : List String := path.segments.map (·.name)

def last? (path : Path) : Option Segment := path.segments.getLast?

def filter? (path : Path) : Option Filter := path.segments.findSome? (·.filter)

def split? (path : Path) : Option (Path × Segment) :=
  path.segments.getLast?.map fun last => (⟨path.schema, path.segments.dropLast⟩, last)

/-- The unqualified path of a dotted text; nothing is refused. -/
def ofDotted (text : String) : Path :=
  ⟨none, (text.toList.splitOnP (· == '.')).map fun name => ⟨String.ofList name, none⟩⟩

end Path

namespace Filter

def both (left right : Filter) : Filter := .logical .and left right

def valueEquals (value : Json) : Filter := .compare (Path.ofDotted "value") .equal value

def mapPaths (f : Path → Path) : Filter → Filter
  | .compare path op value => .compare (f path) op value
  | .logical op left right => .logical op (left.mapPaths f) (right.mapPaths f)
  | .not inner => .not (inner.mapPaths f)

def comparedNames : Filter → List String
  | .compare path _ _ => [dotted path.names]
  | .logical _ left right => left.comparedNames ++ right.comparedNames
  | .not inner => inner.comparedNames

end Filter
end Scim
