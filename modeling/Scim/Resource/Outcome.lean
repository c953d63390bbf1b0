/-! Changes that can stop half-way: the value as far as it was changed, and the fault that
stopped the change. What was done before a fault stays done. -/
namespace Scim

structure Outcome (ε α : Type) where
  value : α
  fault : Option ε
  deriving DecidableEq

namespace Outcome

variable {ε α β : Type}

def done (value : α) : Outcome ε α := ⟨value, none⟩

def stopped (value : α) (fault : ε) : Outcome ε α := ⟨value, some fault⟩

def map (f : α → β) (outcome : Outcome ε α) : Outcome ε β := ⟨f outcome.value, outcome.fault⟩

def andThen (outcome : Outcome ε α) (next : α → Outcome ε α) : Outcome ε α :=
  match outcome.fault with
  | none => next outcome.value
  | some _ => outcome

/-- The same change to each item in turn; those after the first fault stay as they are. -/
def each (change : α → Outcome ε α) : List α → Outcome ε (List α)
  | [] => done []
  | item :: rest =>
    match change item with
    | ⟨changed, some fault⟩ => stopped (changed :: rest) fault
    | ⟨changed, none⟩ => (each change rest).map (changed :: ·)

end Outcome
end Scim
