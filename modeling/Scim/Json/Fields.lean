import Scim.Json.Basic
import Scim.Text.Caseless

/-! The fields of an object. A key is found by its exact spelling, or else by the first spelling
that differs in the case of ASCII letters. Writing to a key keeps its place and a new key goes
last. -/
namespace Scim

abbrev Fields := List (String × Json)

namespace Fields

def keys (fields : Fields) : List String := fields.map (·.1)

/-- The value under exactly this key. -/
def get? (fields : Fields) (key : String) : Option Json :=
  (fields.find? fun field => field.1 == key).map (·.2)

def key? (fields : Fields) (name : String) : Option String :=
  if name ∈ fields.keys then some name
  else fields.keys.find? fun key => decide (Caseless key name)

/-- The spelling under which a name is present, or else its own. -/
def keyFor (fields : Fields) (name : String) : String := (fields.key? name).getD name

/-- The value under a name in any spelling. -/
def find? (fields : Fields) (name : String) : Option Json :=
  (fields.key? name).bind fields.get?

/-- Overwrites the value under a key, or adds the field at the end. -/
def set : Fields → String → Json → Fields
  | [], key, value => [(key, value)]
  | (k, v) :: rest, key, value =>
    if k = key then (k, value) :: rest else (k, v) :: set rest key value

def erase (fields : Fields) (key : String) : Fields := fields.filter fun field => field.1 != key

/-- Fields written one after another, so that a repeated key takes its last value. -/
def ofList (fields : List (String × Json)) : Fields :=
  fields.foldl (fun written field => written.set field.1 field.2) []

/-- No two keys are equal but for the case of ASCII letters. -/
def Distinct (fields : Fields) : Prop := fields.keys.Pairwise fun a b => ¬ Caseless a b

@[simp] theorem get?_nil (key : String) : get? [] key = none := rfl

theorem get?_cons (k : String) (v : Json) (rest : Fields) (key : String) :
    get? ((k, v) :: rest) key = if k = key then some v else get? rest key := by
  by_cases h : k = key <;> simp [get?, h]

theorem get?_set (fields : Fields) (key other : String) (value : Json) :
    (fields.set key value).get? other = if key = other then some value else fields.get? other := by
  induction fields with
  | nil => simp [set, get?_cons]
  | cons field rest ih =>
    obtain ⟨k, v⟩ := field
    by_cases h : k = key
    · subst h
      by_cases g : k = other <;> simp [set, get?_cons, g]
    · by_cases g : k = other
      · subst g
        simp [set, get?_cons, h, Ne.symm h]
      · simp [set, get?_cons, h, g, ih]

theorem keys_set (fields : Fields) (key : String) (value : Json) :
    (fields.set key value).keys =
      if key ∈ fields.keys then fields.keys else fields.keys ++ [key] := by
  induction fields with
  | nil => simp [set, keys]
  | cons field rest ih =>
    obtain ⟨k, v⟩ := field
    by_cases h : k = key
    · simp [set, keys, h]
    · simp only [keys, set, h, if_false, List.map_cons, List.mem_cons, Ne.symm h, false_or] at ih ⊢
      rw [ih]
      split <;> simp_all

theorem get?_erase (fields : Fields) (key other : String) :
    (fields.erase key).get? other = if key = other then none else fields.get? other := by
  induction fields with
  | nil => simp [erase]
  | cons field rest ih =>
    obtain ⟨k, v⟩ := field
    simp only [erase] at ih
    by_cases h : k = key
    · subst h
      by_cases g : k = other
      · subst g
        simpa [erase] using ih
      · simp [erase, get?_cons, g, ih]
    · by_cases g : key = other
      · subst g
        simp [erase, get?_cons, h, ih]
      · simp [erase, get?_cons, h, g, ih]

theorem mem_of_get? {fields : Fields} {key : String} {value : Json}
    (h : fields.get? key = some value) : (key, value) ∈ fields := by
  simp only [get?, Option.map_eq_some_iff] at h
  obtain ⟨field, found, rfl⟩ := h
  have same := List.find?_some found
  simp only [beq_iff_eq] at same
  exact same ▸ List.mem_of_find?_eq_some found

end Fields

namespace Json

def field? (value : Json) (name : String) : Option Json :=
  match value with
  | .object fields => Fields.find? fields name
  | _ => none

end Json
end Scim
