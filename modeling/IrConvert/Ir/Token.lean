import IrConvert.Text.Basic
import IrConvert.Text.Excerpt

namespace IrConvert.Ir

/-- Rows and columns count from 0. -/
structure Position where
  line : Nat
  column : Nat
deriving DecidableEq

inductive Kind where
  | lParen | rParen | lBrace | rBrace
  | colon | singleQuote | comma | dot | equal | exclamation | greater | less | arrow | minus
  | string | intType | floatLiteral | integer | kwF16 | kwTrue
  | atIdentifier | percentIdentifier | caretIdentifier | bareIdentifier
  | eof
deriving DecidableEq

def Kind.name : Kind → Text
  | lParen => "LParen"
  | rParen => "RParen"
  | lBrace => "LBrace"
  | rBrace => "RBrace"
  | colon => "Colon"
  | singleQuote => "SingleQuote"
  | comma => "Comma"
  | dot => "Dot"
  | equal => "Equal"
  | exclamation => "Exclamation"
  | greater => "Greater"
  | less => "Less"
  | arrow => "Arrow"
  | minus => "Minus"
  | string => "String"
  | intType => "IntType"
  | floatLiteral => "FloatLiteral"
  | integer => "Integer"
  | kwF16 => "KwF16"
  | kwTrue => "KwTrue"
  | atIdentifier => "AtIdentifier"
  | percentIdentifier => "PercentIdentifier"
  | caretIdentifier => "CaretIdentifier"
  | bareIdentifier => "BareIdentifier"
  | eof => "Eof"

/-- The position is that of the first character. -/
structure Token where
  kind : Kind
  text : Text
  position : Position
deriving DecidableEq

inductive IntType where
  | i1 | i4 | i8 | i16 | i32 | i64 | i128
deriving DecidableEq

namespace IntType

def all : List IntType := [i1, i4, i8, i16, i32, i64, i128]

def text : IntType → Text
  | i1 => "i1"
  | i4 => "i4"
  | i8 => "i8"
  | i16 => "i16"
  | i32 => "i32"
  | i64 => "i64"
  | i128 => "i128"

def ofText? (text : Text) : Option IntType := all.find? (·.text == text)

theorem ofText?_text (type : IntType) : ofText? type.text = some type := by
  cases type <;> rfl

end IntType

inductive Complaint where
  | expected (kind : Kind) (found : Token)
  | unknownOperation (name : Text)
  | expectedOperand
  | operandType (wanted : IntType) (operand : Text) (given : IntType)
deriving DecidableEq

def Complaint.message : Complaint → Text
  | expected kind found =>
    "Expected " ++ kind.name ++ ", but got " ++ ['`'] ++ found.text ++ ['`'] ++ " of kind "
      ++ found.kind.name
  | unknownOperation name => "Unknown operation: " ++ name
  | expectedOperand => "Expected operand."
  | operandType wanted operand given =>
    "Expected " ++ wanted.text ++ " due to " ++ operand ++ ", but got " ++ given.text

inductive Fault where
  | unterminatedString
  | unreadable (place : Text.Excerpt) (c : Char)
  | misread (place : Text.Excerpt) (complaint : Complaint)
  | typeCount (wanted given : Nat)
  /-- The operand is the result of a call that has none. -/
  | untyped (operand : Text)
deriving DecidableEq

def Fault.message : Fault → Text
  | unterminatedString => "Unterminated string"
  | unreadable place c => place.render ("Scanning failed starting at: " ++ [c])
  | misread place complaint => "\n\n" ++ place.render complaint.message ++ "\n"
  | typeCount wanted given =>
    "Expected " ++ Text.ofNat wanted ++ " types but got " ++ Text.ofNat given
  | untyped operand => "Type was not set for OpResult " ++ operand

end IrConvert.Ir
