import IrConvert.Ir.Operation

namespace IrConvert.Ir

def indentation (depth : Nat) : Text := Text.spaces (2 * depth)

namespace Literal

def mlir (literal : Literal) : Text :=
  match literal with
  | false => literal.valueText
  | integer _ type => literal.valueText ++ " : " ++ type.text

end Literal

def Parameter.mlir (parameter : Parameter) : Text :=
  match parameter.name with
  | some name => name ++ " : " ++ parameter.type.text
  | none => parameter.type.text

namespace Signature

def mlirResults (signature : Signature) : Text :=
  if signature.results.isEmpty then []
  else " -> " ++ commaSeparated (signature.results.map (·.text))

def mlir (signature : Signature) : Text :=
  "func.func " ++ (signature.visibility.map (· ++ [' '])).getD [] ++ signature.name
    ++ inParentheses (commaSeparated (signature.parameters.map Parameter.mlir))
    ++ signature.mlirResults

end Signature

namespace Operation

def operandNames (operands : List Operand) : Text := commaSeparated (operands.map (·.name))

def mlirAdd (result : Text) (operands : List Operand) (type : IntType) : Text :=
  result ++ " = arith.addi " ++ (if operands.isEmpty then [] else operandNames operands ++ [' '])
    ++ ": " ++ type.text

/-- The type of a return without operands is not written. -/
def mlirRet (operands : List Operand) (type : Option IntType) : Text :=
  match operands, type with
  | _ :: _, some type => "return" ++ operands.flatMap (' ' :: ·.name) ++ " : " ++ type.text
  | _, _ => "return" ++ operands.flatMap (' ' :: ·.name)

def mlirCall? (result : Option Text) (callee : Text) (operands : List Operand)
    (operandTypes : List IntType) (type : Option IntType) : Option Text := do
  let type ← callType? result (type.map (·.text)) "()"
  return resultText result ++ "func.call " ++ callee ++ inParentheses (operandNames operands)
    ++ " : " ++ inParentheses (commaSeparated (operandTypes.map (·.text))) ++ " -> " ++ type

def mlirBlock (depth : Nat) (rows : List Text) : Text :=
  " \x7b\n" ++ Text.closeRows rows ++ indentation depth ++ "\x7d"

mutual

/-- The rows after the first are indented, and the last one does not end in a newline. -/
def mlir? (depth : Nat) : Operation → Option Text
  | constant result literal => some (result ++ " = arith.constant " ++ literal.mlir)
  | add result operands type => some (mlirAdd result operands type)
  | ret operands type => some (mlirRet operands type)
  | call result callee operands operandTypes type =>
    mlirCall? result callee operands operandTypes type
  | function signature none => some signature.mlir
  | function signature (some body) => do
    return signature.mlir ++ mlirBlock depth (← mlirRows? (depth + 1) body)
  | module [] => some "module\n"
  | module (first :: others) => do
    return "module" ++ mlirBlock depth (← mlirRows? (depth + 1) (first :: others))

def mlirRows? (depth : Nat) : List Operation → Option (List Text)
  | [] => some []
  | operation :: others => do
    let row ← mlir? depth operation
    return (indentation depth ++ row) :: (← mlirRows? depth others)

end

end Operation

end IrConvert.Ir
