import IrConvert.Outcome
import IrConvert.Text.Excerpt
import IrConvert.Text.Lines

namespace IrConvert.Dialect

def name : Text := "graphblas"

def summary : Text := "GraphBLAS-style sparse linear algebra"

def lead : Text := name ++ ['.']

def nameChar (c : Char) : Bool := c.isAlphanum || c == '_' || c == '.' || c == '$'

/-- Directly after one of these, `graphblas.` does not start the name of an operation but goes
on with a longer name, or names a value, a type, an attribute or a symbol. -/
def gluedChar (c : Char) : Bool := nameChar c || ['!', '#', '@', '%', '^'].contains c

def isOperation (text : Text) : Bool :=
  match Text.after? lead text with
  | some (_ :: _) => true
  | _ => false

structure Declaration where
  name : Text
  summary : Text
deriving DecidableEq

/-- A name outside the dialect is its own mnemonic. -/
def Declaration.mnemonic (declaration : Declaration) : Text :=
  (Text.after? lead declaration.name).getD declaration.name

def declarations : List Declaration := []

def lookup? (name : Text) : Option Declaration := declarations.find? (·.name == name)

/-- Lines and columns count from 0. -/
structure Occurrence where
  line : Nat
  column : Nat
  name : Text
deriving DecidableEq

/-- Whether a name can start after `before` and end before `rest`. -/
def namePlace (inString : Bool) (before : Option Char) (rest : Text) : Bool :=
  if inString then before == some '"' && (Text.after? ['"', '('] rest).isSome
  else !before.any gluedChar

/-- An operation is written by its bare name, `graphblas.foo`, or in the generic form, as a quoted
name before a parenthesis, `"graphblas.foo"(`. -/
def operationAt? (inString : Bool) (before : Option Char) (text : Text) : Option Text :=
  if (Text.after? lead text).isSome && isOperation (text.takeWhile nameChar)
      && namePlace inString before (text.dropWhile nameChar)
  then some (text.takeWhile nameChar)
  else none

/-- A quote opens or closes a string unless it directly follows a backslash. -/
def turnsString (before : Option Char) (c : Char) : Bool := c == '"' && before != some '\\'

/-- What is left of line number `line`, from `column` on. -/
def scan (line : Nat) (inString : Bool) (before : Option Char) (column : Nat) :
    Text → List Occurrence
  | [] => []
  | c :: rest =>
    if !inString && c == '/' && rest.head? == some '/' then []
    else
      let more := scan line (inString != turnsString before c) (some c) (column + 1) rest
      match operationAt? inString before (c :: rest) with
      | some name => ⟨line, column, name⟩ :: more
      | none => more

def occurrencesInLine (line : Nat) (text : Text) : List Occurrence := scan line false none 0 text

def occurrences (source : Text) : List Occurrence :=
  source.lines.zipIdx.flatMap fun (text, line) => occurrencesInLine line text

structure Undeclared where
  name : Text
  excerpt : Text.Excerpt
deriving DecidableEq

def Undeclared.message (undeclared : Undeclared) : Text :=
  "Unregistered operation:\n\n"
    ++ undeclared.excerpt.render
      ("operation '" ++ undeclared.name ++ "' is not registered in the " ++ Dialect.name
        ++ " dialect")
    ++ ['\n']

def firstUndeclared? (source : Text) : Option Occurrence :=
  (occurrences source).find? fun occurrence => (lookup? occurrence.name).isNone

def verify (source : Text) : Outcome Undeclared Unit :=
  match firstUndeclared? source with
  | none => .done ()
  | some ⟨line, column, name⟩ =>
    match Text.Excerpt.of? source.lines line column with
    | some excerpt => .failed ⟨name, excerpt⟩
    | none => .crashed

end IrConvert.Dialect
