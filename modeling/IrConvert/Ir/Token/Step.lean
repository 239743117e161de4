import IrConvert.Ir.Operation
import IrConvert.Ir.Token
import IrConvert.Outcome

namespace IrConvert.Ir

/-- Takes tokens off the front, or complains about the token in front. There is always one in front,
since the last one is never taken. -/
abbrev Step := ReaderT (List Text) (StateT (List Token) (Outcome Fault))

namespace Step

variable {α : Type}

def crash : Step α := fun _ _ => .crashed

def fail (fault : Fault) : Step α := fun _ _ => .failed fault

/-- It is a crash if there is no row to show the token in. -/
def reject (token : Token) (complaint : Complaint) : Step α := do
  match Text.Excerpt.of? (← read) token.position.line token.position.column with
  | some place => fail (.misread place complaint)
  | none => crash

def ofOption (value? : Option α) : Step α :=
  match value? with
  | some value => pure value
  | none => crash

def front : Step Token := fun _ tokens =>
  match tokens with
  | token :: _ => .done (token, tokens)
  | [] => .crashed

def frontIs (kind : Kind) : Step Bool := do return (← front).kind = kind

def take : Step Token := fun _ tokens =>
  match tokens with
  | token :: rest => .done (token, rest)
  | [] => .crashed

def expect (kind : Kind) : Step Token := do
  let token ← front
  if token.kind = kind then take else reject token (.expected kind token)

def take? (kind : Kind) : Step (Option Token) := do
  if ← frontIs kind then some <$> take else return none

def skip (kind : Kind) : Step Unit := do
  let _ ← take? kind

/-- Does without a step that fails, but not without one that crashes. -/
def attempt (step : Step α) : Step Unit := fun rows tokens =>
  match step rows tokens with
  | .done (_, rest) => .done ((), rest)
  | .failed _ => .done ((), tokens)
  | .crashed => .crashed

def atFront (p : Token → Bool) : List Token → Bool
  | token :: _ => p token
  | [] => false

/-- Repeats a step while the token in front is one to go on with. A round that takes no token
would never end. -/
def many (goesOn : Token → Bool) (item : Step α) : Step (List α) := fun rows tokens =>
  if atFront goesOn tokens then do
    let (value, rest) ← item rows tokens
    if _shorter : rest.length < tokens.length then
      let (values, rest) ← many goesOn item rows rest
      return (value :: values, rest)
    else .crashed
  else return ([], tokens)
  termination_by _ tokens => tokens.length

end Step

end IrConvert.Ir
