import Scim.Number.Basic

/-! JSON values. The fields of an object keep their order. -/
namespace Scim

inductive Json where
  | null
  | bool (value : Bool)
  | number (value : Number)
  | string (text : String)
  | array (items : List Json)
  | object (fields : List (String × Json))

namespace Json

instance : Inhabited Json := ⟨null⟩

mutual

protected def decEq : (a b : Json) → Decidable (a = b)
  | .null, b => match b with
    | .null => isTrue rfl
    | .bool _ | .number _ | .string _ | .array _ | .object _ => isFalse nofun
  | .bool a, b => match b with
    | .bool b => decidable_of_iff (a = b) (by simp)
    | .null | .number _ | .string _ | .array _ | .object _ => isFalse nofun
  | .number a, b => match b with
    | .number b => decidable_of_iff (a = b) (by simp)
    | .null | .bool _ | .string _ | .array _ | .object _ => isFalse nofun
  | .string a, b => match b with
    | .string b => decidable_of_iff (a = b) (by simp)
    | .null | .bool _ | .number _ | .array _ | .object _ => isFalse nofun
  | .array a, b => match b with
    | .array b => match Json.decEqItems a b with
      | isTrue h => isTrue (h ▸ rfl)
      | isFalse h => isFalse fun same => h (Json.array.inj same)
    | .null | .bool _ | .number _ | .string _ | .object _ => isFalse nofun
  | .object a, b => match b with
    | .object b => match Json.decEqFields a b with
      | isTrue h => isTrue (h ▸ rfl)
      | isFalse h => isFalse fun same => h (Json.object.inj same)
    | .null | .bool _ | .number _ | .string _ | .array _ => isFalse nofun

protected def decEqItems : (a b : List Json) → Decidable (a = b)
  | [], [] => isTrue rfl
  | [], _ :: _ | _ :: _, [] => isFalse nofun
  | a :: as, b :: bs =>
    match Json.decEq a b, Json.decEqItems as bs with
    | isTrue h, isTrue hs => isTrue (h ▸ hs ▸ rfl)
    | isFalse h, _ => isFalse fun same => h (List.cons.inj same).1
    | _, isFalse hs => isFalse fun same => hs (List.cons.inj same).2

protected def decEqFields : (a b : List (String × Json)) → Decidable (a = b)
  | [], [] => isTrue rfl
  | [], _ :: _ | _ :: _, [] => isFalse nofun
  | (k, a) :: as, (l, b) :: bs =>
    match decEq k l, Json.decEq a b, Json.decEqFields as bs with
    | isTrue hk, isTrue h, isTrue hs => isTrue (hk ▸ h ▸ hs ▸ rfl)
    | isFalse hk, _, _ => isFalse fun same => hk (Prod.mk.inj (List.cons.inj same).1).1
    | _, isFalse h, _ => isFalse fun same => h (Prod.mk.inj (List.cons.inj same).1).2
    | _, _, isFalse hs => isFalse fun same => hs (List.cons.inj same).2

end

instance : DecidableEq Json := Json.decEq

def isNull : Json → Bool
  | .null => true
  | _ => false

def isObject : Json → Bool
  | .object _ => true
  | _ => false

@[simp] theorem isNull_iff (value : Json) : value.isNull = true ↔ value = .null := by
  cases value <;> simp [isNull]

def isScalar : Json → Bool
  | .string _ | .number _ | .bool _ => true
  | _ => false

end Json
end Scim
