import IrConvert.Ir.Token

namespace IrConvert.Ir

inductive Form where
  | constant | add | call | ret | function | module
deriving DecidableEq

namespace Form

def all : List Form := [constant, add, call, ret, function, module]

def name : Form → Text
  | constant => "arith.constant"
  | add => "arith.addi"
  | call => "func.call"
  | ret => "return"
  | function => "func.func"
  | module => "module"

def ofName? (name : Text) : Option Form := all.find? (·.name == name)

end Form

inductive Literal where
  | false
  | integer (value : Nat) (type : IntType)
deriving DecidableEq

namespace Literal

def type : Literal → IntType
  | false => .i1
  | integer _ type => type

def valueText : Literal → Text
  | false => "false"
  | integer value _ => Text.ofNat value

end Literal

/-- What a name stands for. The result of a call whose type does not say so has no type. -/
inductive Definition where
  | parameter (type : IntType)
  | constant (literal : Literal)
  | computed (type : Option IntType)
deriving DecidableEq

def Definition.type? : Definition → Option IntType
  | parameter type => some type
  | constant literal => some literal.type
  | computed type => type

structure Operand where
  name : Text
  definition : Definition
deriving DecidableEq

structure Parameter where
  name : Option Text
  type : IntType
deriving DecidableEq

structure Signature where
  visibility : Option Text
  name : Text
  parameters : List Parameter
  results : List IntType
deriving DecidableEq

/-- A function without a body is a declaration. -/
inductive Operation where
  | constant (result : Text) (literal : Literal)
  | add (result : Text) (operands : List Operand) (type : IntType)
  | ret (operands : List Operand) (type : Option IntType)
  | call (result : Option Text) (callee : Text) (operands : List Operand)
      (operandTypes : List IntType) (type : Option IntType)
  | function (signature : Signature) (body : Option (List Operation))
  | module (body : List Operation)

def Operation.result? : Operation → Option (Text × Definition)
  | constant result literal => some (result, .constant literal)
  | add result _ type => some (result, .computed (some type))
  | call result _ _ _ type => result.map (·, .computed type)
  | _ => none

/-- Whether no operation after this one sees the results that follow it, as after a return with
a type and after a function with parameters. -/
def Operation.closesScope : Operation → Bool
  | .ret _ type => type.isSome
  | .function signature _ => !signature.parameters.isEmpty
  | _ => false

/-- The names that the operands of an operation can use: the parameters of the function around
it and the results before it. A closed scope takes no more results. -/
structure Scope where
  parameters : List Parameter
  results : List (Text × Definition)
  closed : Bool

namespace Scope

def ofParameters (parameters : List Parameter) : Scope := ⟨parameters, [], false⟩

/-- A parameter comes before a result, and an earlier result before a later one. -/
def lookup? (scope : Scope) (name : Text) : Option Definition :=
  match scope.parameters.find? (·.name == some name) with
  | some parameter => some (.parameter parameter.type)
  | none => scope.results.lookup name

def including (scope : Scope) (operation : Operation) : Scope :=
  if scope.closed then scope
  else { scope with
    results := scope.results ++ operation.result?.toList
    closed := operation.closesScope }

end Scope

def commaSeparated (parts : List Text) : Text := Text.joinWith ", " parts

def inParentheses (text : Text) : Text := "(" ++ text ++ ")"

/-- What stands for the type of a call. A call cannot be written if it names a result that it does
not have. -/
def callType? (result type : Option Text) (noType : Text) : Option Text :=
  match result, type with
  | _, some type => some type
  | none, none => some noType
  | some _, none => none

def resultText (result : Option Text) : Text :=
  match result with
  | some name => name ++ " = "
  | none => []

end IrConvert.Ir
