import IrConvert.Text.Basic

namespace IrConvert.Text

/-- Rows and columns count from 0. -/
structure Excerpt where
  before : Option Text
  row : Text
  number : Nat
  column : Nat
deriving DecidableEq

namespace Excerpt

/-- There is nothing to show if `rows` has no row of that number. -/
def of? (rows : List Text) (number column : Nat) : Option Excerpt :=
  match number, rows[number]? with
  | _, none => none
  | 0, some row => some ⟨none, row, 0, column⟩
  | n + 1, some row => some ⟨rows[n]?, row, n + 1, column⟩

def fence : Text := ['`', '`', '`']

def numbered (n : Nat) (row : Text) : Text := ofNat n ++ "  | " ++ row

/-- The margin of the caret is as wide as the number of its row and the four characters after
it, so the caret stands below the character in the column. -/
def caretRow (e : Excerpt) (message : Text) : Text :=
  spaces (e.column + 4 + (ofNat e.number).length) ++ "^ " ++ message

def beforeRow (e : Excerpt) : List Text :=
  (e.before.map (numbered (e.number - 1))).toList

def render (e : Excerpt) (message : Text) : Text :=
  joinRows ([fence] ++ e.beforeRow ++ [numbered e.number e.row, e.caretRow message, fence])

end Excerpt

end IrConvert.Text
