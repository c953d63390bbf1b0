import Scim.Path.Basic

/-! Attribute definitions. Names match in any case of ASCII letters; a definition holds the
canonical spelling. -/
namespace Scim

inductive AttributeType where
  | string
  | boolean
  | decimal
  | integer
  | dateTime
  | reference
  | complex
  | binary
  deriving DecidableEq

namespace AttributeType

def token : AttributeType → String
  | string => "string"
  | boolean => "boolean"
  | decimal => "decimal"
  | integer => "integer"
  | dateTime => "dateTime"
  | reference => "reference"
  | complex => "complex"
  | binary => "binary"

def all : List AttributeType :=
  [string, boolean, decimal, integer, dateTime, reference, complex, binary]

def ofToken? (text : String) : Option AttributeType := all.find? fun type => type.token == text

def isNumeric : AttributeType → Bool
  | decimal | integer => true
  | _ => false

end AttributeType

inductive Mutability where
  | readOnly
  | readWrite
  | immutable
  | writeOnly
  deriving DecidableEq

namespace Mutability

def token : Mutability → String
  | readOnly => "readOnly"
  | readWrite => "readWrite"
  | immutable => "immutable"
  | writeOnly => "writeOnly"

def all : List Mutability := [readOnly, readWrite, immutable, writeOnly]

def ofToken? (text : String) : Option Mutability := all.find? fun value => value.token == text

end Mutability

inductive Returned where
  | always
  | never
  | byDefault
  | request
  deriving DecidableEq

namespace Returned

def token : Returned → String
  | always => "always"
  | never => "never"
  | byDefault => "default"
  | request => "request"

def all : List Returned := [always, never, byDefault, request]

def ofToken? (text : String) : Option Returned := all.find? fun value => value.token == text

end Returned

inductive Uniqueness where
  | none
  | server
  | global
  deriving DecidableEq

namespace Uniqueness

def token : Uniqueness → String
  | none => "none"
  | server => "server"
  | global => "global"

def all : List Uniqueness := [none, server, global]

def ofToken? (text : String) : Option Uniqueness := all.find? fun value => value.token == text

end Uniqueness

structure Attribute where
  name : String
  type : AttributeType := .string
  multiValued : Bool := false
  subAttributes : List Attribute := []
  description : Option String := none
  required : Bool := false
  caseExact : Bool := false
  mutability : Mutability := .readWrite
  returned : Returned := .byDefault
  uniqueness : Uniqueness := .none
  canonicalValues : List String := []
  referenceTypes : List String := []

mutual

def Attribute.decEq : (a b : Attribute) → Decidable (a = b)
  | ⟨n, t, m, s, d, r, c, u, v, q, w, x⟩, ⟨n', t', m', s', d', r', c', u', v', q', w', x'⟩ =>
    let named : Decidable ((n, t, m, d, r, c) = (n', t', m', d', r', c')) := inferInstance
    let given : Decidable ((u, v, q, w, x) = (u', v', q', w', x')) := inferInstance
    match Attribute.decEqList s s', named, given with
    | isTrue hs, isTrue hn, isTrue hg => isTrue (by simp_all)
    | isFalse hs, _, _ => isFalse fun same => hs (by simp_all)
    | _, isFalse hn, _ => isFalse fun same => hn (by simp_all)
    | _, _, isFalse hg => isFalse fun same => hg (by simp_all)

def Attribute.decEqList : (a b : List Attribute) → Decidable (a = b)
  | [], [] => isTrue rfl
  | [], _ :: _ | _ :: _, [] => isFalse nofun
  | a :: as, b :: bs =>
    match Attribute.decEq a b, Attribute.decEqList as bs with
    | isTrue h, isTrue hs => isTrue (h ▸ hs ▸ rfl)
    | isFalse h, _ => isFalse fun same => h (List.cons.inj same).1
    | _, isFalse hs => isFalse fun same => hs (List.cons.inj same).2

end

instance : DecidableEq Attribute := Attribute.decEq

def findAttribute? (attributes : List Attribute) (name : String) : Option Attribute :=
  attributes.find? fun definition => decide (Caseless definition.name name)

/-- The definitions that names lead to, each among the sub-attributes of the one before. -/
def walk (attributes : List Attribute) : List String → Option (List Attribute)
  | [] => some []
  | name :: names =>
    match findAttribute? attributes name with
    | some definition => (walk definition.subAttributes names).map (definition :: ·)
    | none => none

namespace Attribute

def isComplex (definition : Attribute) : Bool := definition.type == .complex

def subAttribute? (definition : Attribute) (name : String) : Option Attribute :=
  findAttribute? definition.subAttributes name

/-- The definition a path leads to from this attribute. An attribute without sub-attributes
answers to `value`, the name of an element itself. -/
def find? (definition : Attribute) (path : Path) : Option Attribute :=
  match definition.subAttributes, path.segments with
  | [], [segment] =>
    if Caseless segment.name "value" then some definition else none
  | subAttributes, _ => (walk subAttributes path.names).bind (·.getLast?)

/-- Texts of this attribute compare without regard to case. -/
def ignoresCase (definition : Attribute) : Bool :=
  !definition.caseExact && definition.type != .dateTime

end Attribute

theorem walk_length {attributes : List Attribute} {names : List String} {chain : List Attribute}
    (h : walk attributes names = some chain) : chain.length = names.length := by
  induction names generalizing attributes chain with
  | nil => simp [walk] at h; simp [← h]
  | cons name names ih =>
    simp only [walk] at h
    split at h
    · simp only [Option.map_eq_some_iff] at h
      obtain ⟨rest, found, rfl⟩ := h
      simp [ih found]
    · simp at h

end Scim
