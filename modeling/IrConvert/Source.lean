import IrConvert.Text.Lines

namespace IrConvert.Source

/-- White space, or a comment that starts the line. -/
def isBlankLine (line : Text) : Bool :=
  line.trim.isEmpty || (Text.after? ['/', '/'] line.trim).isSome

def isBlank (source : Text) : Bool := source.lines.all isBlankLine

def marker : Text := "// -----"

/-- White space around the marker does not count. -/
def isMarker (piece : Text) : Bool := piece.trim == marker

/-- The marker lines belong to no chunk; the other pieces of a chunk are put together again. -/
def chunksOfPieces : List Text → List Text
  | [] => [[]]
  | piece :: more =>
    if isMarker piece then [] :: chunksOfPieces more
    else match chunksOfPieces more with
      | [] => [piece]
      | chunk :: others => (piece ++ chunk) :: others

def chunks (source : Text) : List Text := chunksOfPieces source.pieces

/-- The chunks with something to convert. -/
def contents (source : Text) : List Text := (chunks source).filter (!isBlank ·)

def joinChunks (texts : List Text) : Text := Text.joinWith (marker ++ ['\n']) texts

end IrConvert.Source
