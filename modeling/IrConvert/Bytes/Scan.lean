import IrConvert.Bytes.Reading
import IrConvert.Bytes.Walk
import IrConvert.Dialect
import IrConvert.Source

namespace IrConvert.Bytes

open Text (encode)
open Dialect (nameChar gluedChar turnsString lead)

/-- The chunks from `start` on, of which the pieces up to `offset` are looked at. -/
def chunksFrom (source : ByteArray) (start offset : Nat) : List ByteArray → Walk (List ByteArray)
  | [] => do
    let chunk ← slice source start source.size
    return [chunk]
  | piece :: more =>
    let stop := offset + piece.size
    if same (trim piece) (encode Source.marker) then do
      let chunk ← slice source start offset
      let others ← chunksFrom source stop stop more
      return chunk :: others
    else chunksFrom source start stop more

def chunks (source : ByteArray) : Walk (List ByteArray) := chunksFrom source 0 0 (pieces source)

def nameAt (line : ByteArray) (start : Nat) : Walk ByteArray := do
  let rest ← slice line start line.size
  let stop := ((charsFrom rest 0).find? fun place => !nameChar place.2).map fun place =>
    start + place.1
  slice line start (stop.getD line.size)

def isOperation (name : ByteArray) : Bool :=
  ((after? (encode Dialect.name) name).bind (after? (encode ['.']))).any (·.size != 0)

def namePlace (line : ByteArray) (inString : Bool) (before : Option Char) (stop : Nat) :
    Walk Bool :=
  if inString then
    if before = some '"' then do
      let behind ← slice line stop line.size
      return startsWith (encode ['"', '(']) behind
    else return false
  else return !before.any gluedChar

def operationAt? (line : ByteArray) (inString : Bool) (before : Option Char) (offset : Nat) :
    Walk (Option ByteArray) := do
  let ahead ← slice line offset line.size
  if startsWith (encode lead) ahead then
    let name ← nameAt line offset
    let free ← namePlace line inString before (offset + name.size)
    return if free && isOperation name then some name else none
  else return none

/-- An operation with its column, as it is reported, and the offset where the scan was. -/
structure Finding where
  line : Nat
  column : Nat
  offset : Nat
  name : ByteArray

/-- Takes two counts along: the offset of a character in bytes, at which slices are taken, and its
column in characters, which is reported. -/
def scan (line : ByteArray) (number : Nat) (inString : Bool) (before : Option Char) (column : Nat) :
    List (Nat × Char) → Walk (List Finding)
  | [] => return []
  | (offset, c) :: rest =>
    if !inString && c == '/' && rest.head?.map Prod.snd == some '/' then return []
    else do
      let name? ← operationAt? line inString before offset
      let more ← scan line number (inString != turnsString before c) (some c) (column + 1) rest
      return (name?.map fun name => ⟨number, column, offset, name⟩).toList ++ more

def findingsInLine (number : Nat) (line : ByteArray) : Walk (List Finding) :=
  scan line number false none 0 (charsFrom line 0)

def findingsFrom (number : Nat) : List ByteArray → Walk (List Finding)
  | [] => return []
  | line :: more => do
    let here ← findingsInLine number line
    let below ← findingsFrom (number + 1) more
    return here ++ below

def findings (source : ByteArray) : Walk (List Finding) := findingsFrom 0 (lines source)

def shownBefore (lines : List ByteArray) (number : Nat) : Walk ByteArray :=
  if 0 < number then do
    let line ← item lines (number - 1)
    return encode (['\n'] ++ Text.ofNat (number - 1) ++ "  | ") ++ line
  else return ByteArray.empty

def diagnostic (lines : List ByteArray) (number column : Nat) (message : ByteArray) :
    Walk ByteArray := do
  let before ← shownBefore lines number
  let width := 4 + (encode (Text.ofNat number)).size
  let line ← item lines number
  return encode "```" ++ before ++ encode (['\n'] ++ Text.ofNat number ++ "  | ") ++ line ++
    encode (['\n'] ++ Text.spaces (column + width) ++ "^ ") ++ message ++ encode "\n```"

def declaration? (name : ByteArray) : Option Dialect.Declaration :=
  Dialect.declarations.find? fun declaration => same (encode declaration.name) name

def remark (name : ByteArray) : ByteArray :=
  encode "operation '" ++ name ++
    encode ("' is not registered in the " ++ Dialect.name ++ " dialect")

/-- Ends with a message about the first finding that is not declared. -/
def refuse (lines : List ByteArray) : List Finding → Walk Unit
  | [] => return ()
  | finding :: more =>
    if (declaration? finding.name).isNone then do
      let shown ← diagnostic lines finding.line finding.column (remark finding.name)
      Walk.fail (encode "Unregistered operation:" ++ encode "\n\n" ++ shown ++ encode ['\n'])
    else refuse lines more

def verify (source : ByteArray) : Walk Unit := do
  let found ← findings source
  refuse (lines source) found

end IrConvert.Bytes
