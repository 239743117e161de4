namespace IrConvert

abbrev Text := List Char

instance : Coe String Text := ⟨String.toList⟩

namespace Text

/-- Decimal digits, without a sign and without leading zeros. -/
def ofNat (n : Nat) : Text := Nat.toDigits 10 n

def toNat (digits : Text) : Nat := digits.foldl (fun n c => 10 * n + (c.toNat - '0'.toNat)) 0

def spaces (n : Nat) : Text := List.replicate n ' '

def joinWith (separator : Text) (parts : List Text) : Text := List.intercalate separator parts

def joinRows (rows : List Text) : Text := joinWith ['\n'] rows

/-- Every row ends in a newline, the last one too. -/
def closeRows (rows : List Text) : Text := rows.flatMap (· ++ ['\n'])

/-- What follows `front` in `text`, if `text` starts with it. -/
def after? (front text : Text) : Option Text := List.isPrefixOf? front text

/-- Adds a newline at the end unless one is there. -/
def withNewline (text : Text) : Text :=
  if text.getLast? = some '\n' then text else text ++ ['\n']

def quoted (text : Text) : Text := '"' :: text ++ ['"']

/-- The characters with the property `White_Space`. -/
def blanks : List Nat :=
  [0x9, 0xA, 0xB, 0xC, 0xD, 0x20, 0x85, 0xA0, 0x1680, 0x2000, 0x2001, 0x2002, 0x2003, 0x2004,
    0x2005, 0x2006, 0x2007, 0x2008, 0x2009, 0x200A, 0x2028, 0x2029, 0x202F, 0x205F, 0x3000]

def blankChar (c : Char) : Bool := blanks.contains c.toNat

theorem blankChar_of_isWhitespace (c : Char) (h : c.isWhitespace = true) : blankChar c = true := by
  simp only [Char.isWhitespace, Bool.or_eq_true, decide_eq_true_eq] at h
  rcases h with ((h | h) | h) | h <;> subst h <;> rfl

def trimStart (text : Text) : Text := text.dropWhile blankChar

def trimEnd (text : Text) : Text := (text.reverse.dropWhile blankChar).reverse

def trim (text : Text) : Text := trimEnd (trimStart text)

end Text

end IrConvert
