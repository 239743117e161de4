import IrConvert.Ir.Operation

namespace IrConvert.Ir

/-- The name of a parameter stands alone, any other operand comes after its type. -/
def Operand.llvm? (operand : Operand) : Option Text :=
  match operand.definition with
  | .parameter _ => some operand.name
  | .constant literal => some (literal.type.text ++ [' '] ++ literal.valueText)
  | .computed type => type.map (·.text ++ [' '] ++ operand.name)

def Parameter.llvm (parameter : Parameter) : Text :=
  parameter.type.text ++ (parameter.name.map (' ' :: ·)).getD []

/-- A single result has its type; without a result, or with several, the type is `void`. -/
def Signature.llvmResult (signature : Signature) : Text :=
  match signature.results with
  | [type] => type.text
  | _ => "void"

def Signature.llvm (signature : Signature) : Text :=
  signature.llvmResult ++ [' '] ++ signature.name
    ++ inParentheses (commaSeparated (signature.parameters.map Parameter.llvm))

namespace Operation

def llvmOperands? (operands : List Operand) : Option Text :=
  commaSeparated <$> operands.mapM Operand.llvm?

def llvmCall? (result : Option Text) (callee : Text) (operands : List Operand)
    (type : Option IntType) : Option Text := do
  let type ← callType? result (type.map (·.text)) "void"
  return resultText result ++ "call " ++ type ++ [' '] ++ callee
    ++ inParentheses (← llvmOperands? operands)

def llvmModule (rows : List Text) : Text :=
  "; ModuleID = 'LLVMDialectModule'\nsource_filename = \"LLVMDialectModule\"\n\n"
    ++ Text.closeRows rows
    ++ "\n!llvm.module.flags = !\x7b!0\x7d\n\n"
    ++ "!0 = !\x7bi32 2, !\"Debug Info Version\", i32 3\x7d"

def llvmBlock (rows : List Text) : Text :=
  " \x7b\n" ++ Text.closeRows (rows.map ("  " ++ ·)) ++ "\x7d"

mutual

/-- An addition has an empty row after it, and a body that was written without operations is a
single newline. -/
def llvm? : Operation → Option Text
  | constant _ _ => some []
  | add result operands _ => do
    return result ++ " = add " ++ (← llvmOperands? operands) ++ "\n"
  | ret [] _ => some "ret void"
  | ret (first :: others) _ => do return "ret " ++ (← llvmOperands? (first :: others))
  | call result callee operands _ type => llvmCall? result callee operands type
  | function signature none => some ("declare " ++ signature.llvm)
  | function signature (some []) => some ("define " ++ signature.llvm ++ "\n")
  | function signature (some (first :: others)) => do
    return "define " ++ signature.llvm ++ llvmBlock (← llvmRows? (first :: others))
  | module body => do return llvmModule (← llvmRows? body)

def llvmRows? : List Operation → Option (List Text)
  | [] => some []
  | constant _ _ :: others => llvmRows? others
  | operation :: others => do
    let row ← llvm? operation
    return row :: (← llvmRows? others)

end

end Operation

end IrConvert.Ir
