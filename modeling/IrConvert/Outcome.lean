namespace IrConvert

/-- A step finishes with a value, fails with a reason that its caller can see, or crashes: then
nothing that was to follow it happens, whatever the caller would do with a failure. -/
inductive Outcome (ε α : Type) where
  | done (value : α)
  | failed (reason : ε)
  | crashed
deriving DecidableEq

namespace Outcome

variable {ε ε' α β : Type}

def bind (outcome : Outcome ε α) (next : α → Outcome ε β) : Outcome ε β :=
  match outcome with
  | done value => next value
  | failed reason => failed reason
  | crashed => crashed

instance : Monad (Outcome ε) where
  pure := done
  bind := bind

instance : LawfulMonad (Outcome ε) :=
  LawfulMonad.mk' (Outcome ε)
    (fun outcome => by cases outcome <;> rfl)
    (fun _ _ => rfl)
    (fun outcome _ _ => by cases outcome <;> rfl)

def mapReason (f : ε → ε') : Outcome ε α → Outcome ε' α
  | done value => done value
  | failed reason => failed (f reason)
  | crashed => crashed

/-- A missing value is a crash. -/
def ofOption : Option α → Outcome ε α
  | some value => done value
  | none => crashed

end Outcome

end IrConvert
