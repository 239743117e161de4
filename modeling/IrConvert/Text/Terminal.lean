import IrConvert.Text.Basic

namespace IrConvert.Text

def escape : Char := '\x1b'

/-- White space that a terminal shows. -/
def spacing (c : Char) : Bool := ['\t', '\n', '\x0c', '\r'].contains c

def controlChar (c : Char) : Bool := c.toNat < 0x20 || c.toNat == 0x7f

/-- The characters that sequences are written in. Others in a sequence have no meaning for it. -/
def sequenceChar (c : Char) : Bool := ' ' ≤ c && c ≤ '~'

/-- The byte that ends a string, alone or among the bytes of a character. -/
def stringTerminator : UInt8 := 0x9c

def terminatesString (c : Char) : Bool := (String.utf8EncodeChar c).contains stringTerminator

inductive DeviceHead where
  | opened
  | parameters
  | intermediate
deriving DecidableEq

inductive Sequence where
  | outside
  /-- Right after the escape character. -/
  | opened
  | intermediate
  | parameters
  /-- In a device control string, before its text. -/
  | device (head : DeviceHead)
  /-- In a command to the system, which ends at a bell. -/
  | command
  /-- In the text of any other string, which ends at a terminator. -/
  | string
deriving DecidableEq

namespace Sequence

def afterOpening (c : Char) : Sequence :=
  match c with
  | '[' => .parameters
  | ']' => .command
  | 'P' => .device .opened
  | 'X' | '^' | '_' => .string
  | _ => if c ≤ '/' then .intermediate else .outside

def afterHead (head : DeviceHead) (c : Char) : Sequence :=
  if c ≤ '/' then .device .intermediate
  else match head with
    | .opened => if c ≤ '?' ∧ c ≠ ':' then .device .parameters else .string
    | .parameters => if c.isDigit ∨ c = ';' then .device .parameters else .string
    | .intermediate => .string

/-- Where the terminal stands after a character. Cancel and substitute break any sequence off, and
white space breaks off those that are not strings. -/
def after (sequence : Sequence) (c : Char) : Sequence :=
  if c = escape then .opened
  else if c = '\x18' ∨ c = '\x1a' then .outside
  else match sequence with
    | .outside => .outside
    | .opened =>
      if spacing c then .outside else if sequenceChar c then afterOpening c else sequence
    | .intermediate =>
      if spacing c then .outside else if sequenceChar c ∧ '/' < c then .outside else sequence
    | .parameters =>
      if spacing c then .outside else if sequenceChar c ∧ '?' < c then .outside else sequence
    | .device head => if sequenceChar c then afterHead head c else sequence
    | .command => if c = '\x07' then .outside else sequence
    | .string => if terminatesString c then .outside else sequence

def shows (sequence : Sequence) (c : Char) : Bool :=
  match sequence with
  | .outside => spacing c || !controlChar c
  | .opened | .intermediate | .parameters => spacing c
  | .device _ | .command | .string => false

end Sequence

def plainFrom (sequence : Sequence) : Text → Text
  | [] => []
  | c :: rest =>
    if sequence.shows c then c :: plainFrom (sequence.after c) rest
    else plainFrom (sequence.after c) rest

def plain (text : Text) : Text := plainFrom .outside text

/-- Text without control characters is shown as it is. -/
theorem plain_eq_self {text : Text} (h : ∀ c ∈ text, controlChar c = false) :
    plain text = text := by
  induction text with
  | nil => rfl
  | cons c rest ih =>
    obtain ⟨hc, hrest⟩ := List.forall_mem_cons.1 h
    have stays : Sequence.outside.after c = .outside := by
      have hesc : c ≠ escape := by rintro rfl; simp [controlChar, escape] at hc
      unfold Sequence.after
      simp only [hesc, if_false]
      split <;> rfl
    have shown : Sequence.outside.shows c = true := by simp [Sequence.shows, hc]
    have := ih hrest
    simp_all [plain, plainFrom]

def widthFrom (hidden : Bool) : Text → Nat
  | [] => 0
  | c :: rest =>
    if controlChar c then widthFrom true rest
    else if hidden then widthFrom (c ≠ 'm') rest
    else 1 + widthFrom false rest

/-- The columns that are counted for a text. From a control character on to the next `m` there are
none. -/
def width (text : Text) : Nat := widthFrom false text

def strong (text : Text) : Text := escape :: "[1m" ++ text ++ escape :: "[0m"

def heading (text : Text) : Text := escape :: "[1m" ++ escape :: "[4m" ++ text ++ escape :: "[0m"

def hexDigits (n : Nat) : Text := Nat.toDigits 16 n

/-- A character of a log line. Those that a terminal might obey are spelled out by their code
points, others are kept, line ends and tabs too. -/
def spelled (c : Char) : Text :=
  if ['\x07', '\x08', '\x0c', escape, '\x7f'].contains c then
    "\\x" ++ hexDigits (c.toNat / 16) ++ hexDigits (c.toNat % 16)
  else if 0x80 ≤ c.toNat ∧ c.toNat ≤ 0x9f then "\\u\x7b" ++ hexDigits c.toNat ++ "\x7d"
  else [c]

def spellOut (text : Text) : Text := text.flatMap spelled

end IrConvert.Text
