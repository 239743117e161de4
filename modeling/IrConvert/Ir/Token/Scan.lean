import IrConvert.Ir.Token
import IrConvert.Outcome
import IrConvert.Text.Letter
import IrConvert.Text.Lines
import IrConvert.Text.Utf8

namespace IrConvert.Ir.Token

def wordChar (c : Char) : Bool := c.isAlphanum || c == '_'

def identifierStart (c : Char) : Bool := Text.letterChar c || ['_', '@', '%', '^'].contains c

/-- Letters are those of any script, digits only those of ASCII. -/
def identifierChar (c : Char) : Bool :=
  Text.letterChar c || c.isDigit || c == '_' || c == '.'

def lineEnd (c : Char) : Bool := c == '\n' || c == '\r'

def punctuation? : Char → Option Kind
  | '(' => some .lParen
  | ')' => some .rParen
  | '{' => some .lBrace
  | '}' => some .rBrace
  | ':' => some .colon
  | '\x27' => some .singleQuote
  | ',' => some .comma
  | '.' => some .dot
  | '=' => some .equal
  | '!' => some .exclamation
  | '>' => some .greater
  | '<' => some .less
  | _ => none

def identifierKind (text : Text) : Kind :=
  if text = "f16".toList then .kwF16
  else if text = "true".toList then .kwTrue
  else match text.head? with
    | some '@' => .atIdentifier
    | some '%' => .percentIdentifier
    | some '^' => .caretIdentifier
    | _ => .bareIdentifier

/-- What starts with a character; `length` counts the characters that follow it. -/
inductive Lexeme where
  | token (kind : Kind) (length : Nat)
  | skipped (length : Nat)
  | newline
  | unterminatedString
  | unreadable
deriving DecidableEq

def runLength (p : Char → Bool) (text : Text) : Nat := (text.takeWhile p).length

/-- Digits, and a point and more digits if a digit follows the point. -/
def numberLexeme (rest : Text) : Lexeme :=
  let digits := runLength Char.isDigit rest
  match rest.drop digits with
  | '.' :: d :: more =>
    if d.isDigit then .token .floatLiteral (digits + 2 + runLength Char.isDigit more)
    else .token .integer digits
  | _ => .token .integer digits

/-- A string ends at the next quote, on whatever line that is. -/
def stringLexeme (rest : Text) : Lexeme :=
  let length := runLength (· != '"') rest
  if length < rest.length then .token .string (length + 1) else .unterminatedString

def lexeme (c : Char) (rest : Text) : Lexeme :=
  let word := c :: rest.takeWhile wordChar
  match punctuation? c with
  | some kind => .token kind 0
  | none =>
    if c == ' ' || c == '\t' then .skipped 0
    else if lineEnd c then .newline
    else if c == '-' then if rest.head? == some '>' then .token .arrow 1 else .token .minus 0
    else if c == '"' then stringLexeme rest
    else if (IntType.ofText? word).isSome then .token .intType (runLength wordChar rest)
    else if c.isDigit then numberLexeme rest
    else if identifierStart c then
      .token (identifierKind (c :: rest.takeWhile identifierChar)) (runLength identifierChar rest)
    else if c == '/' && rest.head? == some '/' then .skipped (runLength (!lineEnd ·) rest)
    else .unreadable

def typeReach : Nat := 10

/-- Whether the search for the name of an integer type runs into the end of the text. -/
def searchesToEnd (rest : Text) : Bool := rest.length < typeReach && rest.all wordChar

/-- A source and whether it is ASCII, which is asked often. -/
structure Sheet where
  source : Text
  ascii : Bool
  ascii_eq : ascii = source.isAscii

namespace Sheet

def of (source : Text) : Sheet := ⟨source, source.isAscii, rfl⟩

/-- What comes of a look past the last character. The end is found by a count of bytes, so it is
missed, which is a crash, if some characters take several. -/
def atEnd {α : Type} (sheet : Sheet) (outcome : Outcome Fault α) : Outcome Fault α :=
  if sheet.ascii then outcome else .crashed

/-- A token is cut out at the offsets in bytes that equal its bounds in characters, so one of them
can fall into a character. -/
def severable (sheet : Sheet) (index length : Nat) : Bool :=
  sheet.ascii || sheet.source.wholeAt index && sheet.source.wholeAt (index + length)

def unreadable {α : Type} (sheet : Sheet) (position : Position) (c : Char) : Outcome Fault α :=
  match Text.Excerpt.of? sheet.source.rows position.line position.column with
  | some place => .failed (.unreadable place c)
  | none => .crashed

end Sheet

/-- The tokens from a place on, which is known by the count of characters before it and by its
position. The last token stands at the end and is empty. -/
def scanFrom (sheet : Sheet) (index : Nat) (position : Position) :
    Text → Outcome Fault (List Token)
  | [] => sheet.atEnd (.done [⟨.eof, [], position⟩])
  | c :: rest =>
    match lexeme c rest with
    | .token kind length =>
      if sheet.severable index (length + 1) then do
        let tokens ← scanFrom sheet (index + 1 + length)
          ⟨position.line, position.column + 1 + length⟩ (rest.drop length)
        return ⟨kind, c :: rest.take length, position⟩ :: tokens
      else .crashed
    | .skipped length =>
      scanFrom sheet (index + 1 + length) ⟨position.line, position.column + 1 + length⟩
        (rest.drop length)
    | .newline => scanFrom sheet (index + 1) ⟨position.line + 1, 0⟩ rest
    | .unterminatedString => sheet.atEnd (.failed .unterminatedString)
    | .unreadable =>
      if searchesToEnd rest then sheet.atEnd (sheet.unreadable position c)
      else sheet.unreadable position c
  termination_by text => text.length
  decreasing_by all_goals simp; try omega

def scan (source : Text) : Outcome Fault (List Token) := scanFrom (.of source) 0 ⟨0, 0⟩ source

end IrConvert.Ir.Token
