import IrConvert.Bytes.Scan
import IrConvert.Proofs.Bytes.Reading
import IrConvert.Proofs.Dialect.Shown

namespace IrConvert.Bytes

open Text (encode)
open Dialect (nameChar gluedChar turnsString lead occurrences occurrencesInLine Occurrence)

theorem outcome_nameAt (front text : Text) :
    (nameAt (encode (front ++ text)) front.byteCount).outcome =
      .done (encode (text.takeWhile nameChar)) := by
  rw [nameAt, Walk.outcome_bind_of_done (outcome_slice_rest front text), charsFrom_encode_zero,
    find?_offsets]
  have hsplit : text.takeWhile nameChar ++ text.dropWhile nameChar = text :=
    List.takeWhile_append_dropWhile
  have hslice := outcome_slice front (text.takeWhile nameChar) (text.dropWhile nameChar)
  rw [hsplit] at hslice
  -- without a character that ends it the name goes on to the end of the line
  cases hdrop : text.dropWhile nameChar with
  | nil =>
    rw [hdrop, List.append_nil] at hsplit
    rw [hsplit] at hslice ⊢
    rw [← Text.byteCount_append, ← Text.size_encode (front ++ text)] at hslice
    exact hslice
  | cons c rest =>
    simpa using hslice

theorem isOperation_encode (name : Text) :
    isOperation (encode name) = Dialect.isOperation name := by
  have hlead : (after? (encode Dialect.name) (encode name)).bind (after? (encode ['.'])) =
      (Text.after? lead name).map encode := by
    rw [lead, Text.after?_append, after?_encode, Option.bind_map, Option.map_bind]
    simp only [Function.comp_def, after?_encode]
  rw [isOperation, hlead, Dialect.isOperation]
  cases Text.after? lead name with
  | none => rfl
  | some mnemonic =>
    cases mnemonic with
    | nil => simp
    | cons c rest =>
      have hpos := c.utf8Size_pos
      simp [Text.size_encode, Text.byteCount]
      omega

theorem outcome_namePlace (front name rest : Text) (inString : Bool) (before : Option Char) :
    (namePlace (encode (front ++ (name ++ rest))) inString before
      (front.byteCount + (encode name).size)).outcome =
      .done (Dialect.namePlace inString before rest) := by
  have hslice := outcome_slice_rest (front ++ name) rest
  rw [List.append_assoc, Text.byteCount_append, ← Text.size_encode name] at hslice
  cases inString with
  | false => rfl
  | true =>
    by_cases hbefore : before = some '"'
    · rw [namePlace, if_pos rfl, if_pos hbefore, Walk.outcome_bind_of_done hslice,
        startsWith_encode]
      simp [Dialect.namePlace, hbefore]
    · rw [namePlace, if_pos rfl, if_neg hbefore]
      simp [Dialect.namePlace, hbefore]

theorem outcome_operationAt? (front text : Text) (inString : Bool) (before : Option Char) :
    (operationAt? (encode (front ++ text)) inString before front.byteCount).outcome =
      .done ((Dialect.operationAt? inString before text).map encode) := by
  rw [operationAt?, Walk.outcome_bind_of_done (outcome_slice_rest front text)]
  have hname := outcome_nameAt front text
  have hplace := outcome_namePlace front (text.takeWhile nameChar) (text.dropWhile nameChar)
    inString before
  rw [List.takeWhile_append_dropWhile] at hplace
  rw [startsWith_encode, Dialect.operationAt?]
  cases (Text.after? lead text).isSome with
  | false => rfl
  | true =>
    rw [if_pos rfl, Walk.outcome_bind_of_done hname, Walk.outcome_bind_of_done hplace,
      isOperation_encode, Bool.true_and, Bool.and_comm]
    split <;> simp_all

def Finding.ofOccurrence (chars : Text) (o : Occurrence) : Finding where
  line := o.line
  column := o.column
  offset := Text.byteCount (chars.take o.column)
  name := encode o.name

/-- From any character on, the scan finds what the scan of the characters finds. -/
theorem outcome_scan (number : ℕ) (front rest : Text) (inString : Bool) (before : Option Char) :
    (scan (encode (front ++ rest)) number inString before front.length
      (offsets front.byteCount rest)).outcome =
      .done ((Dialect.scan number inString before front.length rest).map
        (Finding.ofOccurrence (front ++ rest))) := by
  induction rest generalizing front inString before with
  | nil => rfl
  | cons c rest ih =>
    have hhead : (offsets (front.byteCount + c.utf8Size) rest).head?.map Prod.snd = rest.head? := by
      cases rest <;> rfl
    rw [offsets, scan, Dialect.scan, hhead]
    by_cases hcomment : (!inString && c == '/' && rest.head? == some '/') = true
    · rw [if_pos hcomment, if_pos hcomment]
      rfl
    · rw [if_neg hcomment, if_neg hcomment]
      have hmore := ih (front ++ [c]) (inString != turnsString before c) (some c)
      rw [← List.append_cons, List.length_append, List.length_singleton,
        Text.byteCount_concat] at hmore
      rw [Walk.outcome_bind_of_done (outcome_operationAt? front (c :: rest) inString before),
        Walk.outcome_bind_of_done hmore]
      have htake : (front ++ c :: rest).take front.length = front := List.take_left
      cases Dialect.operationAt? inString before (c :: rest) with
      | none => rfl
      | some name => simp [Finding.ofOccurrence, htake]

theorem outcome_findingsInLine (number : ℕ) (chars : Text) :
    (findingsInLine number (encode chars)).outcome =
      .done ((occurrencesInLine number chars).map (Finding.ofOccurrence chars)) := by
  rw [findingsInLine, charsFrom_encode_zero]
  exact outcome_scan number [] chars false none

theorem outcome_findingsFrom (number : ℕ) (texts : List Text) :
    (findingsFrom number (texts.map encode)).outcome =
      .done ((texts.zipIdx number).flatMap fun p =>
        (occurrencesInLine p.2 p.1).map (Finding.ofOccurrence p.1)) := by
  induction texts generalizing number with
  | nil => rfl
  | cons text texts ih =>
    rw [List.map_cons, findingsFrom, Walk.outcome_bind_of_done (outcome_findingsInLine number text),
      Walk.outcome_bind_of_done (ih (number + 1))]
    rfl

def findingIn (source : Text) (o : Occurrence) : Finding :=
  Finding.ofOccurrence (source.lines[o.line]?.getD []) o

@[simp]
theorem line_findingIn (source : Text) (o : Occurrence) :
    (findingIn source o).line = o.line := rfl

@[simp]
theorem column_findingIn (source : Text) (o : Occurrence) :
    (findingIn source o).column = o.column := rfl

@[simp]
theorem name_findingIn (source : Text) (o : Occurrence) :
    (findingIn source o).name = encode o.name := rfl

/-- The bytes of a source have the findings that its operations are. -/
theorem outcome_findings (source : Text) :
    (findings (encode source)).outcome = .done ((occurrences source).map (findingIn source)) := by
  rw [findings, lines_encode, outcome_findingsFrom, occurrences, List.map_flatMap]
  congr 1
  apply List.flatMap_congr
  intro p hp
  apply List.map_congr_left
  intro o ho
  have hline := List.mem_zipIdx_iff_getElem?.1 hp
  rw [findingIn, ((Dialect.mem_occurrencesInLine_iff p.2 p.1 o).1 ho).1, hline, Option.getD_some]

/-- A finding has a line, its name stands at its offset, and its column counts the characters
before that. -/
theorem exists_cut_of_mem {source : Text} {o : Occurrence} (h : o ∈ occurrences source) :
    ∃ front rest : Text, source.lines[o.line]? = some (front ++ (o.name ++ rest)) ∧
      (findingIn source o).offset = front.byteCount ∧
        (findingIn source o).column = front.length := by
  obtain ⟨chars, hline, hwritten⟩ := (Dialect.mem_occurrences_iff source o).1 h
  obtain ⟨front, rest, rfl, hcolumn, -⟩ := hwritten.cut
  refine ⟨front, rest, hline, ?_, hcolumn.symm⟩
  rw [findingIn, hline, Option.getD_some, Finding.ofOccurrence, ← hcolumn, List.take_left]

end IrConvert.Bytes
