import IrConvert.Text.Basic
import IrConvert.Text.Utf8

namespace IrConvert.Bytes

open Text (encode)

def same (bytes other : ByteArray) : Bool := bytes.data == other.data

theorem same_iff {bytes other : ByteArray} : same bytes other = true ↔ bytes = other := by
  simp [same, ByteArray.ext_iff]

def startsWith (front bytes : ByteArray) : Bool := same (bytes.extract 0 front.size) front

def after? (front bytes : ByteArray) : Option ByteArray :=
  if startsWith front bytes then some (bytes.extract front.size bytes.size) else none

def before? (last bytes : ByteArray) : Option ByteArray :=
  if same (bytes.extract (bytes.size - last.size) bytes.size) last then
    some (bytes.extract 0 (bytes.size - last.size))
  else none

def newline : UInt8 := 10

def cutLines : List UInt8 → List (List UInt8)
  | [] => []
  | b :: rest =>
    if b = newline then [b] :: cutLines rest
    else match cutLines rest with
      | [] => [[b]]
      | piece :: more => (b :: piece) :: more

def pieces (bytes : ByteArray) : List ByteArray :=
  (cutLines bytes.data.toList).map List.toByteArray

/-- A piece without the newline at its end, and without the carriage return before that. -/
def lineOf (piece : ByteArray) : ByteArray :=
  match before? (encode ['\n']) piece with
  | none => piece
  | some line => (before? (encode ['\r']) line).getD line

def lines (bytes : ByteArray) : List ByteArray := (pieces bytes).map lineOf

/-- There is no white space in bytes that are no text. -/
def trim (bytes : ByteArray) : ByteArray :=
  match Text.decode? bytes with
  | none => bytes
  | some text => encode text.trim

/-- The characters from an offset on, each with the offset where it starts. -/
def charsFrom (bytes : ByteArray) (offset : Nat) : List (Nat × Char) :=
  if h : (bytes.utf8DecodeChar? offset).isSome then
    let c := bytes.utf8DecodeChar offset h
    (offset, c) :: charsFrom bytes (offset + c.utf8Size)
  else []
termination_by bytes.size - offset
decreasing_by
  have hle := ByteArray.add_utf8Size_utf8DecodeChar_le_size (h := h)
  have hpos := Char.utf8Size_pos (bytes.utf8DecodeChar offset h)
  omega

end IrConvert.Bytes
