import IrConvert.Ir.Operation
import IrConvert.Ir.Token.Scan
import IrConvert.Ir.Token.Step

namespace IrConvert.Ir

namespace Step

def nameToken : List Token → Option Token
  | first :: second :: more => if second.kind = .equal then more.head? else some first
  | _ => none

/-- The form of the operation in front, of which no token is taken yet. -/
def form : Step Form := do
  let token ← ofOption (nameToken (← get))
  match Form.ofName? token.text with
  | some form => return form
  | none => reject token (.unknownOperation token.text)

def operationName (form : Form) : Step Unit := do
  let token ← expect .bareIdentifier
  if token.text ≠ form.name then crash

def result? : Step (Option Text) := do
  let token? ← take? .percentIdentifier
  return token?.map (·.text)

/-- Any other token than an integer type is a crash. -/
def intType : Step IntType := do
  let token ← take
  if token.kind = .intType then ofOption (IntType.ofText? token.text) else crash

def expectIntType : Step IntType := do
  let token ← expect .intType
  ofOption (IntType.ofText? token.text)

def operand (scope : Scope) : Step Operand := do
  let token ← front
  if token.kind ≠ .percentIdentifier then reject token .expectedOperand
  let _ ← take
  let definition ← ofOption (scope.lookup? token.text)
  return ⟨token.text, definition⟩

def operands (scope : Scope) : Step (List Operand) := do
  if ← frontIs .percentIdentifier then
    let first ← operand scope
    let others ← many (·.kind = .comma) (do skip .comma; operand scope)
    return first :: others
  else return []

/-- The first integer that does not have 64 bits. -/
def integerBound : Nat := 18446744073709551616

/-- Integers have at most 64 bits, whatever type is written after them. -/
def integerLiteral : Step Literal := do
  let token ← expect .integer
  let _ ← expect .colon
  let type ← expectIntType
  let value := token.text.toNat
  if value < integerBound then return .integer value type else crash

def literal : Step Literal := do
  let token ← front
  if token.kind = .bareIdentifier ∧ token.text = "false".toList then
    let _ ← take
    return .false
  else integerLiteral

def resultAndName (form : Form) : Step Text := do
  let name? ← result?
  let _ ← expect .equal
  operationName form
  ofOption name?

def constant : Step Operation := do
  let result ← resultAndName .constant
  return .constant result (← literal)

def add (scope? : Option Scope) : Step Operation := do
  let scope ← ofOption scope?
  let result ← resultAndName .add
  let operands ← operands scope
  let _ ← expect .colon
  return .add result operands (← expectIntType)

/-- A type in a list and the last token of that entry, which is the comma if there is one. -/
def typeEntry : Step (IntType × Token) := do
  let token ← front
  let type ← intType
  let comma? ← take? .comma
  return (type, comma?.getD token)

/-- The first operand with another type than the given one is rejected at the end of the list
of types. -/
def checkTypes (last : Token) : List (Operand × IntType) → Step Unit
  | [] => pure ()
  | (operand, given) :: more => do
    match operand.definition.type? with
    | none => fail (.untyped operand.name)
    | some type =>
      if type ≠ given then reject last (.operandType type operand.name given)
      checkTypes last more

/-- Without operands there are no types to read. -/
def operandTypes (operands : List Operand) : Step (List IntType) := do
  if operands.isEmpty then return []
  let entries ← many (·.kind ≠ .rParen) typeEntry
  let types := entries.map (·.1)
  if types.length ≠ operands.length then fail (.typeCount operands.length types.length)
  if let some (_, last) := entries.getLast? then checkTypes last (operands.zip types)
  return types

/-- Empty parentheses stand for no result type, and there are no others. -/
def resultType? : Step (Option IntType) := do
  if ← frontIs .lParen then
    let _ ← take
    if ← frontIs .rParen then
      let _ ← take
      return none
    else crash
  else some <$> intType

def call (scope? : Option Scope) : Step Operation := do
  let result ← result?
  skip .equal
  operationName .call
  let callee ← expect .atIdentifier
  let _ ← expect .lParen
  let scope ← ofOption scope?
  let operands ← operands scope
  let _ ← expect .rParen
  let _ ← expect .colon
  let _ ← expect .lParen
  let types ← operandTypes operands
  let _ ← expect .rParen
  let _ ← expect .arrow
  let type? ← resultType?
  if type?.isSome ∧ result.isNone then crash
  return .call result callee.text operands types type?

def ret (scope? : Option Scope) : Step Operation := do
  let scope ← ofOption scope?
  operationName .ret
  if ← frontIs .rBrace then return .ret [] none
  let operands ← operands scope
  let _ ← expect .colon
  return .ret operands (some (← expectIntType))

/-- Three points would leave the list of parameters open, and an exclamation mark would begin the
name of a type. Both are crashes, as there are no such lists and no such types. -/
def opensParameter (token : Token) : Bool :=
  [Kind.percentIdentifier, .intType, .dot, .exclamation].contains token.kind

def openEnd : Step Parameter := do
  let _ ← expect .dot
  let _ ← expect .dot
  let _ ← expect .dot
  crash

def namedOrBare : Step Parameter := do
  let name? ← result?
  if name?.isSome then
    let _ ← expect .colon
  return ⟨name?, ← intType⟩

def parameter : Step Parameter := do
  let parameter ← if ← frontIs .dot then openEnd else namedOrBare
  skip .comma
  return parameter

/-- The closing parenthesis may be missing, if what stands in its place could be shown. -/
def signature : Step Signature := do
  operationName .function
  let visibility? ← take? .bareIdentifier
  let name ← expect .atIdentifier
  let _ ← expect .lParen
  let parameters ← many opensParameter parameter
  attempt (expect .rParen)
  let arrow? ← take? .arrow
  let results ← if arrow?.isSome then many (·.kind = .intType) intType else pure []
  return ⟨visibility?.map (·.text), name.text, parameters, results⟩

mutual

/-- Outside a body there is no scope. -/
def operation (scope? : Option Scope) (rows : List Text) (tokens : List Token) :
    Outcome Fault (Operation × List Token) := do
  match ← form rows tokens with
  | (.constant, _) => constant rows tokens
  | (.add, _) => add scope? rows tokens
  | (.call, _) => call scope? rows tokens
  | (.ret, _) => ret scope? rows tokens
  | (.function, _) =>
    let (signature, rest) ← signature rows tokens
    if atFront (·.kind = .lBrace) rest then
      if _shorter : rest.length < tokens.length then
        let (inside, rest) ← body (.ofParameters signature.parameters) rows rest
        return (.function signature (some inside), rest)
      else .crashed
    else return (.function signature none, rest)
  | (.module, _) =>
    let (_, rest) ← operationName .module rows tokens
    if _shorter : rest.length < tokens.length then
      let (inside, rest) ← body (.ofParameters []) rows rest
      return (.module inside, rest)
    else .crashed
  termination_by 2 * tokens.length

def body (scope : Scope) (rows : List Text) (tokens : List Token) :
    Outcome Fault (List Operation × List Token) := do
  let (_, rest) ← expect .lBrace rows tokens
  if _shorter : rest.length < tokens.length then
    let (inside, rest) ← operations scope rows rest
    let (_, rest) ← expect .rBrace rows rest
    return (inside, rest)
  else .crashed
  termination_by 2 * tokens.length

/-- Operations up to a closing brace, each in the scope of those before it. -/
def operations (scope : Scope) (rows : List Text) (tokens : List Token) :
    Outcome Fault (List Operation × List Token) := do
  if atFront (·.kind = .rBrace) tokens then return ([], tokens)
  else
    let (first, rest) ← operation (some scope) rows tokens
    if _shorter : rest.length < tokens.length then
      let (others, rest) ← operations (scope.including first) rows rest
      return (first :: others, rest)
    else .crashed
  termination_by 2 * tokens.length + 1

end

/-- A text is one module, or operations that are put into one. What follows is not read. -/
def source : Step (List Operation) := do
  match ← operation none with
  | .module operations => return operations
  | first =>
    let others ← many (·.kind = .bareIdentifier) (operation none)
    return first :: others

end Step

def read (source : Text) : Outcome Fault (List Operation) := do
  let tokens ← Token.scan source
  let (operations, _) ← Step.source source.rows tokens
  return operations

end IrConvert.Ir
