import IrConvert.Conversion
import IrConvert.Proofs.Dialect.Concatenation
import IrConvert.Proofs.Source.Division

namespace IrConvert

open Text (Closed FullLine blankChar)

namespace Text

theorem trimEnd_append (text : Text) :
    ∃ ending : Text, text.trimEnd ++ ending = text ∧ ∀ c ∈ ending, blankChar c = true := by
  refine ⟨(text.reverse.takeWhile blankChar).reverse, ?_, fun c hc => ?_⟩
  · rw [trimEnd, ← List.reverse_append, List.takeWhile_append_dropWhile, List.reverse_reverse]
  · exact List.mem_takeWhile_imp (List.mem_reverse.1 hc)

theorem blank_of_trim_eq_nil {text : Text} (h : text.trim = []) :
    ∀ c ∈ text, blankChar c = true := by
  have hstart : ∀ c ∈ text.trimStart, blankChar c = true := by
    rw [trim, trimEnd, List.reverse_eq_nil_iff, List.dropWhile_eq_nil_iff] at h
    exact fun c hc => h c (List.mem_reverse.2 hc)
  -- what is left of the start does not start with white space, so nothing is left
  have hnil : text.dropWhile blankChar = [] := by
    by_contra hne
    have hhead := List.head_dropWhile_not blankChar hne
    rw [hstart _ (List.head_mem hne)] at hhead
    cases hhead
  exact List.dropWhile_eq_nil_iff.1 hnil

theorem trim_eq_nil_iff (text : Text) : text.trim = [] ↔ ∀ c ∈ text, blankChar c = true := by
  constructor
  · exact blank_of_trim_eq_nil
  · intro h
    rw [trim, trimStart, List.dropWhile_eq_nil_iff.2 h]
    rfl

/-- No white space at the end of a text makes two slashes at its start any less. -/
theorem slashes_prefix_trim_iff (text : Text) :
    ['/', '/'] <+: text.trim ↔ ['/', '/'] <+: text.trimStart := by
  obtain ⟨ending, he, hblank⟩ := trimEnd_append text.trimStart
  have hhead : ∀ c ∈ ending.head?, c ∉ ['/', '/'] := by
    intro c hc hmem
    have hc' : c = '/' := by simpa using hmem
    exact ne_of_blankChar (hblank c (List.mem_of_mem_head? hc)) rfl hc'
  have hprefix := @prefix_append_iff ['/', '/'] text.trim ending hhead
  rw [trim, he] at hprefix
  exact hprefix.symm

end Text

/-- Two slashes at the start of a line are a comment also with white space before them. -/
theorem Source.isBlankLine_iff (line : Text) : isBlankLine line = true ↔
    (∀ c ∈ line, blankChar c = true) ∨ ['/', '/'] <+: line.trimStart := by
  rw [isBlankLine, Bool.or_eq_true, List.isEmpty_iff, Text.trim_eq_nil_iff,
    Dialect.after?_isSome_iff, Text.slashes_prefix_trim_iff]

namespace Dialect

theorem exists_scan_append_of_blank {front : Text} (h : ∀ c ∈ front, blankChar c = true)
    (number : ℕ) (inString : Bool) (before : Option Char) (column : ℕ) (rest : Text) :
    ∃ before', scan number inString before column (front ++ rest) =
      scan number inString before' (column + front.length) rest := by
  induction front generalizing before column with
  | nil => exact ⟨before, rfl⟩
  | cons c front ih =>
    obtain ⟨before', hrest⟩ :=
      ih (fun d hd => h d (List.mem_cons_of_mem c hd)) (some c) (column + 1)
    refine ⟨before', ?_⟩
    rw [List.cons_append, scan_cons_of_blank (h c List.mem_cons_self), hrest, List.length_cons,
      Nat.add_right_comm, Nat.add_assoc]

theorem occurrencesInLine_of_isBlankLine {line : Text} (h : Source.isBlankLine line = true)
    (number : ℕ) : occurrencesInLine number line = [] := by
  rcases (Source.isBlankLine_iff line).1 h with hblank | ⟨rest, hrest⟩
  · exact scan_of_blank hblank number _ _ _
  · rw [Text.trimStart] at hrest
    have hfront : ∀ c ∈ line.takeWhile blankChar, blankChar c = true := fun c hc =>
      List.mem_takeWhile_imp hc
    -- up to the slashes no quote can have opened a string
    obtain ⟨before, hscan⟩ :=
      exists_scan_append_of_blank hfront number false none 0 (line.dropWhile blankChar)
    rw [List.takeWhile_append_dropWhile, ← hrest] at hscan
    rw [occurrencesInLine, hscan]
    rfl

theorem occurrences_of_isBlank {source : Text} (h : Source.isBlank source = true) :
    occurrences source = [] := by
  rw [Source.isBlank, List.all_eq_true] at h
  rw [occurrences, List.flatMap_eq_nil_iff]
  intro p hp
  exact occurrencesInLine_of_isBlankLine (h p.1 (List.fst_mem_of_mem_zipIdx hp)) p.2

end Dialect

namespace Source

theorem isBlankLine_withoutEnd (piece : Text) :
    isBlankLine piece.withoutEnd = isBlankLine piece := by
  rw [isBlankLine, Text.trim_withoutEnd, isBlankLine]

theorem isBlank_eq (source : Text) : isBlank source = source.pieces.all isBlankLine := by
  rw [isBlank, Text.lines, List.all_map]
  congr 1
  funext piece
  exact isBlankLine_withoutEnd piece

theorem isBlank_append {text : Text} (h : Closed text) (other : Text) :
    isBlank (text ++ other) = (isBlank text && isBlank other) := by
  rw [isBlank_eq, Text.pieces_append h, List.all_append, isBlank_eq, isBlank_eq]

theorem isBlankLine_of_trim_eq_marker {mark : Text} (h : mark.trim = marker) :
    isBlankLine mark = true := by
  rw [isBlankLine, h]
  decide

/-- A marker line is a comment. -/
theorem isBlank_mark {mark : Text} (hline : FullLine mark ∨ '\n' ∉ mark)
    (h : mark.trim = marker) : isBlank mark = true := by
  have hpieces : mark.pieces = [mark] := by
    rcases hline with hfull | hopen
    · exact Text.pieces_fullLine hfull
    · exact Text.pieces_of_not_mem (ne_nil_of_trim_eq_marker h) hopen
  rw [isBlank_eq, hpieces, List.all_cons, isBlankLine_of_trim_eq_marker h]
  rfl

theorem Division.isBlank_iff {source first : Text} {cuts : List Cut}
    (h : Division source first cuts) :
    isBlank source = true ↔ ∀ chunk ∈ textsOf first cuts, isBlank chunk = true := by
  induction h using Division.cutInduction with
  | nil text hunmarked => simp [textsOf]
  | cons first cut cuts rest hclosed hunmarked htrim hwhole hrest ih =>
    have hmark : isBlank (cut.mark ++ rest) = isBlank rest := by
      rcases hwhole with hfull | ⟨hopen, rfl⟩
      · rw [isBlank_append hfull.closed, isBlank_mark (Or.inl hfull) htrim, Bool.true_and]
      · rw [List.append_nil, isBlank_mark (Or.inr hopen) htrim]
        rfl
    rw [isBlank_append hclosed, Bool.and_eq_true, hmark, ih, textsOf_cons, List.forall_mem_cons]

theorem isBlank_iff_chunks (source : Text) :
    isBlank source = true ↔ ∀ chunk ∈ chunks source, isBlank chunk = true := by
  obtain ⟨first, cuts, h⟩ := exists_division source
  rw [h.chunks_eq]
  exact h.isBlank_iff

theorem contents_eq_nil_iff (source : Text) : contents source = [] ↔ isBlank source = true := by
  rw [isBlank_iff_chunks, contents, List.filter_eq_nil_iff]
  simp

theorem contents_ne_nil {source : Text} (h : isBlank source = false) : contents source ≠ [] := by
  rw [Ne, contents_eq_nil_iff, h]
  exact Bool.false_ne_true

theorem isBlank_of_mem_contents {source chunk : Text} (h : chunk ∈ contents source) :
    isBlank chunk = false := by
  have hfilter := (List.mem_filter.1 h).2
  rwa [Bool.not_eq_true'] at hfilter

theorem chunksOfPieces_ne_nil (pieces : List Text) : chunksOfPieces pieces ≠ [] := by
  induction pieces with
  | nil => exact List.cons_ne_nil [] []
  | cons piece more ih =>
    obtain ⟨chunk, others, hmore⟩ := List.exists_cons_of_ne_nil ih
    cases hmarker : isMarker piece with
    | true =>
      rw [chunksOfPieces_cons_of_marker more hmarker]
      exact List.cons_ne_nil _ _
    | false =>
      rw [chunksOfPieces_cons_of_unmarked hmarker hmore]
      exact List.cons_ne_nil _ _

theorem chunksOfPieces_append_marker {mark : Text} (hmark : isMarker mark = true)
    (pieces more : List Text) :
    chunksOfPieces (pieces ++ mark :: more) = chunksOfPieces pieces ++ chunksOfPieces more := by
  induction pieces with
  | nil => exact chunksOfPieces_cons_of_marker more hmark
  | cons piece pieces ih =>
    rw [List.cons_append]
    cases hmarker : isMarker piece with
    | true =>
      rw [chunksOfPieces_cons_of_marker _ hmarker, chunksOfPieces_cons_of_marker _ hmarker, ih,
        List.cons_append]
    | false =>
      obtain ⟨chunk, others, hpieces⟩ :=
        List.exists_cons_of_ne_nil (chunksOfPieces_ne_nil pieces)
      rw [hpieces, List.cons_append] at ih
      rw [chunksOfPieces_cons_of_unmarked hmarker ih,
        chunksOfPieces_cons_of_unmarked hmarker hpieces, List.cons_append]

/-- A marker line cuts a source into the chunks before it and those after it. -/
theorem chunks_append_mark {text mark : Text} (hclosed : Closed text) (hfull : FullLine mark)
    (h : mark.trim = marker) (other : Text) :
    chunks (text ++ (mark ++ other)) = chunks text ++ chunks other := by
  rw [chunks, Text.pieces_append hclosed, Text.pieces_fullLine_append hfull,
    chunksOfPieces_append_marker ((isMarker_iff mark).2 h), chunks, chunks]

theorem contents_append_mark {text mark : Text} (hclosed : Closed text) (hfull : FullLine mark)
    (h : mark.trim = marker) (other : Text) :
    contents (text ++ (mark ++ other)) = contents text ++ contents other := by
  rw [contents, chunks_append_mark hclosed hfull h, List.filter_append, contents, contents]

end Source

end IrConvert
