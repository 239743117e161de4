import IrConvert.Proofs.Text.Lines
import IrConvert.Source

namespace IrConvert.Source

open Text (Closed FullLine)

/-- No line consists of the marker. -/
def Unmarked (text : Text) : Prop := ∀ line ∈ text.lines, line.trim ≠ marker

instance : DecidablePred Unmarked := fun text =>
  inferInstanceAs (Decidable (∀ line ∈ text.lines, line.trim ≠ marker))

/-- A marker line and the text after it. -/
structure Cut where
  mark : Text
  chunk : Text
deriving DecidableEq

def textsOf (first : Text) (cuts : List Cut) : List Text := first :: cuts.map Cut.chunk

theorem textsOf_cons (first : Text) (cut : Cut) (cuts : List Cut) :
    textsOf first (cut :: cuts) = first :: textsOf cut.chunk cuts := rfl

/-- A source is its first chunk, and then a marker line and a chunk by turns. Only at the end of
the source a marker line may have no newline. -/
structure Division (source first : Text) (cuts : List Cut) : Prop where
  source_eq : source = first ++ cuts.flatMap fun cut => cut.mark ++ cut.chunk
  trim_mark : ∀ cut ∈ cuts, cut.mark.trim = marker
  whole_mark : ∀ front cut back, cuts = front ++ cut :: back →
    FullLine cut.mark ∨ ('\n' ∉ cut.mark ∧ cut.chunk = [] ∧ back = [])
  unmarked : ∀ chunk ∈ textsOf first cuts, Unmarked chunk
  closed : ∀ chunk ∈ (textsOf first cuts).dropLast, Closed chunk

theorem isMarker_iff (piece : Text) : isMarker piece = true ↔ piece.trim = marker := beq_iff_eq

theorem unmarked_iff (text : Text) :
    Unmarked text ↔ ∀ piece ∈ text.pieces, isMarker piece = false := by
  simp only [Unmarked, Text.lines, List.forall_mem_map, Text.trim_withoutEnd, ← Bool.not_eq_true,
    isMarker_iff, ne_eq]

theorem chunksOfPieces_cons_of_unmarked {piece chunk : Text} {more others : List Text}
    (h : isMarker piece = false) (hmore : chunksOfPieces more = chunk :: others) :
    chunksOfPieces (piece :: more) = (piece ++ chunk) :: others := by
  rw [chunksOfPieces, h, hmore]
  rfl

theorem chunksOfPieces_cons_of_marker {piece : Text} (more : List Text)
    (h : isMarker piece = true) : chunksOfPieces (piece :: more) = [] :: chunksOfPieces more := by
  rw [chunksOfPieces, h]
  rfl

theorem chunksOfPieces_append {pieces more others : List Text} {chunk : Text}
    (h : ∀ piece ∈ pieces, isMarker piece = false) (hmore : chunksOfPieces more = chunk :: others) :
    chunksOfPieces (pieces ++ more) = (pieces.flatten ++ chunk) :: others := by
  induction pieces with
  | nil => exact hmore
  | cons piece pieces ih =>
    have hrest := ih fun p hp => h p (List.mem_cons_of_mem piece hp)
    rw [List.cons_append, chunksOfPieces_cons_of_unmarked (h piece List.mem_cons_self) hrest,
      List.flatten_cons, List.append_assoc]

theorem chunks_of_unmarked {text : Text} (h : Unmarked text) : chunks text = [text] := by
  have hpieces : chunksOfPieces (text.pieces ++ []) = [text.pieces.flatten ++ []] :=
    chunksOfPieces_append ((unmarked_iff text).1 h) rfl
  rwa [List.append_nil, List.append_nil, Text.flatten_pieces] at hpieces

theorem chunks_append_of_unmarked {text rest chunk : Text} {others : List Text}
    (hclosed : Closed text) (h : Unmarked text) (hrest : chunks rest = chunk :: others) :
    chunks (text ++ rest) = (text ++ chunk) :: others := by
  rw [chunks, Text.pieces_append hclosed, chunksOfPieces_append ((unmarked_iff text).1 h) hrest,
    Text.flatten_pieces]

theorem chunks_mark_append {mark : Text} (hfull : FullLine mark) (h : mark.trim = marker)
    (rest : Text) : chunks (mark ++ rest) = [] :: chunks rest := by
  rw [chunks, Text.pieces_fullLine_append hfull,
    chunksOfPieces_cons_of_marker _ ((isMarker_iff mark).2 h), chunks]

theorem ne_nil_of_trim_eq_marker {mark : Text} (h : mark.trim = marker) : mark ≠ [] := by
  intro he
  rw [he] at h
  revert h
  decide

theorem chunks_open_mark {mark : Text} (hopen : '\n' ∉ mark) (h : mark.trim = marker) :
    chunks mark = [[], []] := by
  have hne : mark ≠ [] := ne_nil_of_trim_eq_marker h
  rw [chunks, Text.pieces_of_not_mem hne hopen,
    chunksOfPieces_cons_of_marker _ ((isMarker_iff mark).2 h), chunksOfPieces]

theorem division_nil_iff (source first : Text) :
    Division source first [] ↔ source = first ∧ Unmarked first := by
  constructor
  · intro h
    refine ⟨?_, h.unmarked first List.mem_cons_self⟩
    rw [h.source_eq, List.flatMap_nil, List.append_nil]
  · intro h
    obtain ⟨rfl, hunmarked⟩ := h
    exact
      { source_eq := by simp
        trim_mark := by simp
        whole_mark := by simp
        unmarked := by simpa [textsOf] using hunmarked
        closed := by simp [textsOf] }

theorem division_cons_iff (source first : Text) (cut : Cut) (cuts : List Cut) :
    Division source first (cut :: cuts) ↔
      Closed first ∧ Unmarked first ∧ cut.mark.trim = marker ∧
      (FullLine cut.mark ∨ ('\n' ∉ cut.mark ∧ cut.chunk = [] ∧ cuts = [])) ∧
      ∃ rest, source = first ++ (cut.mark ++ rest) ∧ Division rest cut.chunk cuts := by
  have hlast : (textsOf first (cut :: cuts)).dropLast =
      first :: (textsOf cut.chunk cuts).dropLast := rfl
  constructor
  · intro h
    refine ⟨h.closed first (hlast ▸ List.mem_cons_self), h.unmarked first List.mem_cons_self,
      h.trim_mark cut List.mem_cons_self, h.whole_mark [] cut cuts rfl,
      cut.chunk ++ cuts.flatMap fun cut => cut.mark ++ cut.chunk, ?_, ?_⟩
    · rw [h.source_eq, List.flatMap_cons, List.append_assoc]
    · exact
        { source_eq := rfl
          trim_mark := fun c hc => h.trim_mark c (List.mem_cons_of_mem cut hc)
          whole_mark := fun front c back he => h.whole_mark (cut :: front) c back (by rw [he]; rfl)
          unmarked := fun c hc => h.unmarked c (List.mem_cons_of_mem first hc)
          closed := fun c hc => h.closed c (hlast ▸ List.mem_cons_of_mem first hc) }
  · intro hcut
    obtain ⟨hclosed, hunmarked, htrim, hwhole, rest, rfl, h⟩ := hcut
    refine ⟨?_, ?_, ?_, ?_, ?_⟩
    · rw [h.source_eq, List.flatMap_cons, List.append_assoc]
    · exact List.forall_mem_cons.2 ⟨htrim, h.trim_mark⟩
    · intro front c back he
      cases front with
      | nil =>
        obtain ⟨rfl, rfl⟩ := List.cons.inj he
        exact hwhole
      | cons x front => exact h.whole_mark front c back (List.cons.inj he).2
    · exact List.forall_mem_cons.2 ⟨hunmarked, h.unmarked⟩
    · rw [hlast]
      exact List.forall_mem_cons.2 ⟨hclosed, h.closed⟩

/-- Every division is made from one without cuts by putting a text and a marker line in front. -/
@[elab_as_elim]
theorem Division.cutInduction
    {motive : ∀ source first cuts, Division source first cuts → Prop}
    (nil : ∀ text (h : Unmarked text),
      motive text text [] ((division_nil_iff text text).2 ⟨rfl, h⟩))
    (cons : ∀ first cut cuts rest, Closed first → Unmarked first → cut.mark.trim = marker →
      (FullLine cut.mark ∨ ('\n' ∉ cut.mark ∧ rest = [])) →
      ∀ hrest : Division rest cut.chunk cuts, motive rest cut.chunk cuts hrest →
      ∀ h, motive (first ++ (cut.mark ++ rest)) first (cut :: cuts) h)
    {source first : Text} {cuts : List Cut} (h : Division source first cuts) :
    motive source first cuts h := by
  induction cuts generalizing source first with
  | nil =>
    obtain ⟨rfl, hunmarked⟩ := (division_nil_iff source first).1 h
    exact nil source hunmarked
  | cons cut cuts ih =>
    obtain ⟨hclosed, hunmarked, htrim, hwhole, rest, rfl, hrest⟩ :=
      (division_cons_iff source first cut cuts).1 h
    refine cons first cut cuts rest hclosed hunmarked htrim ?_ hrest (ih hrest) h
    rcases hwhole with hfull | ⟨hopen, hchunk, rfl⟩
    · exact Or.inl hfull
    · obtain ⟨rfl, -⟩ := (division_nil_iff rest cut.chunk).1 hrest
      exact Or.inr ⟨hopen, hchunk⟩

theorem Division.chunks_eq {cuts : List Cut} {source first : Text}
    (h : Division source first cuts) : chunks source = textsOf first cuts := by
  induction cuts generalizing source first with
  | nil =>
    obtain ⟨rfl, hunmarked⟩ := (division_nil_iff source first).1 h
    exact chunks_of_unmarked hunmarked
  | cons cut cuts ih =>
    obtain ⟨hclosed, hunmarked, htrim, hwhole, rest, rfl, hrest⟩ :=
      (division_cons_iff source first cut cuts).1 h
    -- a mark without a newline is the end of the source, so no pieces run together there
    have hmark : chunks (cut.mark ++ rest) = [] :: textsOf cut.chunk cuts := by
      rcases hwhole with hfull | ⟨hopen, hchunk, rfl⟩
      · rw [chunks_mark_append hfull htrim, ih hrest]
      · obtain ⟨rfl, -⟩ := (division_nil_iff rest cut.chunk).1 hrest
        rw [hchunk, List.append_nil, chunks_open_mark hopen htrim]
        rfl
    rw [chunks_append_of_unmarked hclosed hunmarked hmark, List.append_nil]
    rfl

def marks (source : Text) : List Text := source.pieces.filter isMarker

theorem marks_of_unmarked {text : Text} (h : Unmarked text) : marks text = [] := by
  rw [marks, List.filter_eq_nil_iff]
  intro piece hp
  rw [(unmarked_iff text).1 h piece hp]
  exact Bool.false_ne_true

theorem marks_append {text : Text} (h : Closed text) (rest : Text) :
    marks (text ++ rest) = marks text ++ marks rest := by
  rw [marks, Text.pieces_append h, List.filter_append, marks, marks]

theorem marks_eq_singleton {mark : Text} (hpieces : mark.pieces = [mark])
    (htrim : mark.trim = marker) : marks mark = [mark] := by
  rw [marks, hpieces, List.filter_cons_of_pos ((isMarker_iff mark).2 htrim), List.filter_nil]

theorem Division.marks_eq {cuts : List Cut} {source first : Text}
    (h : Division source first cuts) : marks source = cuts.map Cut.mark := by
  induction cuts generalizing source first with
  | nil =>
    obtain ⟨rfl, hunmarked⟩ := (division_nil_iff source first).1 h
    exact marks_of_unmarked hunmarked
  | cons cut cuts ih =>
    obtain ⟨hclosed, hunmarked, htrim, hwhole, rest, rfl, hrest⟩ :=
      (division_cons_iff source first cut cuts).1 h
    rw [marks_append hclosed, marks_of_unmarked hunmarked, List.nil_append, List.map_cons]
    rcases hwhole with hfull | ⟨hopen, hchunk, rfl⟩
    · rw [marks_append hfull.closed, marks_eq_singleton (Text.pieces_fullLine hfull) htrim,
        ih hrest, List.singleton_append]
    · obtain ⟨rfl, -⟩ := (division_nil_iff rest cut.chunk).1 hrest
      have hne : cut.mark ≠ [] := ne_nil_of_trim_eq_marker htrim
      rw [hchunk, List.append_nil, List.map_nil,
        marks_eq_singleton (Text.pieces_of_not_mem hne hopen) htrim]

theorem length_marks (source : Text) :
    (marks source).length = source.lines.countP fun line => line.trim == marker := by
  rw [marks, Text.lines, List.countP_map, List.countP_eq_length_filter]
  congr 2
  funext piece
  rw [Function.comp_apply, Text.trim_withoutEnd, isMarker]

theorem zip_marks_chunks (cuts : List Cut) :
    List.zipWith Cut.mk (cuts.map Cut.mark) (cuts.map Cut.chunk) = cuts := by
  simp [List.zipWith_map]

theorem division_unique {source first first' : Text} {cuts cuts' : List Cut}
    (h : Division source first cuts) (h' : Division source first' cuts') :
    first = first' ∧ cuts = cuts' := by
  -- the texts and the marks are read off the source, so both divisions have the same
  have htexts : textsOf first cuts = textsOf first' cuts' := by
    rw [← h.chunks_eq, h'.chunks_eq]
  have hmarks : cuts.map Cut.mark = cuts'.map Cut.mark := by
    rw [← h.marks_eq, h'.marks_eq]
  obtain ⟨hfirst, hchunks⟩ := List.cons.inj htexts
  refine ⟨hfirst, ?_⟩
  rw [← zip_marks_chunks cuts, hmarks, hchunks, zip_marks_chunks]

theorem unmarked_nil : Unmarked [] := by
  intro line hline
  cases hline

theorem unmarked_fullLine_append {full text : Text} (hfull : FullLine full)
    (hfree : isMarker full = false) (h : Unmarked text) : Unmarked (full ++ text) := by
  rw [unmarked_iff, Text.pieces_fullLine_append hfull]
  exact List.forall_mem_cons.2 ⟨hfree, (unmarked_iff text).1 h⟩

theorem Division.mark_append {mark source first : Text} {cuts : List Cut}
    (hfull : FullLine mark) (htrim : mark.trim = marker) (h : Division source first cuts) :
    Division (mark ++ source) [] (⟨mark, first⟩ :: cuts) :=
  (division_cons_iff ..).2
    ⟨Text.closed_nil, unmarked_nil, htrim, Or.inl hfull, source, rfl, h⟩

theorem Division.line_append {full source first : Text} {cuts : List Cut}
    (hfull : FullLine full) (hfree : isMarker full = false) (h : Division source first cuts) :
    Division (full ++ source) (full ++ first) cuts := by
  cases cuts with
  | nil =>
    obtain ⟨rfl, hunmarked⟩ := (division_nil_iff source first).1 h
    exact (division_nil_iff ..).2 ⟨rfl, unmarked_fullLine_append hfull hfree hunmarked⟩
  | cons cut cuts =>
    obtain ⟨hclosed, hunmarked, htrim, hwhole, rest, rfl, hrest⟩ :=
      (division_cons_iff source first cut cuts).1 h
    exact (division_cons_iff ..).2 ⟨hfull.closed.append hclosed,
      unmarked_fullLine_append hfull hfree hunmarked, htrim, hwhole, rest,
      (List.append_assoc ..).symm, hrest⟩

theorem exists_division (source : Text) : ∃ first cuts, Division source first cuts := by
  induction source using Text.lineInduction with
  | nil => exact ⟨[], [], (division_nil_iff ..).2 ⟨rfl, unmarked_nil⟩⟩
  | last line hne hopen =>
    cases hmarker : isMarker line with
    | true =>
      have hnil : Division [] [] [] := (division_nil_iff ..).2 ⟨rfl, unmarked_nil⟩
      exact ⟨[], [⟨line, []⟩], (division_cons_iff ..).2 ⟨Text.closed_nil, unmarked_nil,
        (isMarker_iff line).1 hmarker, Or.inr ⟨hopen, rfl, rfl⟩, [], (List.append_nil line).symm,
        hnil⟩⟩
    | false =>
      have hunmarked : Unmarked line := by
        rw [unmarked_iff, Text.pieces_of_not_mem hne hopen]
        exact List.forall_mem_singleton.2 hmarker
      exact ⟨line, [], (division_nil_iff ..).2 ⟨rfl, hunmarked⟩⟩
  | line full rest hfull ih =>
    obtain ⟨first, cuts, h⟩ := ih
    -- a marker line starts a division of its own, any other line goes into the first text
    cases hmarker : isMarker full with
    | true => exact ⟨[], ⟨full, first⟩ :: cuts, h.mark_append hfull ((isMarker_iff full).1 hmarker)⟩
    | false => exact ⟨full ++ first, cuts, h.line_append hfull hmarker⟩

theorem trim_marker_newline : Text.trim (marker ++ ['\n']) = marker := by decide

theorem fullLine_marker_newline : FullLine (marker ++ ['\n']) := ⟨marker, by decide, rfl⟩

theorem joinChunks_singleton (text : Text) : joinChunks [text] = text := by
  simp [joinChunks, Text.joinWith]

theorem joinChunks_cons_cons (first second : Text) (others : List Text) :
    joinChunks (first :: second :: others) =
      first ++ (marker ++ ['\n'] ++ joinChunks (second :: others)) := by
  rw [joinChunks, Text.joinWith, List.intercalate_cons_cons, List.append_assoc, joinChunks,
    Text.joinWith]

theorem division_joinChunks {first : Text} {others : List Text}
    (hunmarked : ∀ text ∈ first :: others, Unmarked text)
    (hclosed : ∀ text ∈ (first :: others).dropLast, Closed text) :
    Division (joinChunks (first :: others)) first (others.map (Cut.mk (marker ++ ['\n']))) := by
  induction others generalizing first with
  | nil =>
    exact (division_nil_iff ..).2 ⟨joinChunks_singleton first, hunmarked first List.mem_cons_self⟩
  | cons second others ih =>
    refine (division_cons_iff ..).2 ⟨hclosed first List.mem_cons_self,
      hunmarked first List.mem_cons_self, trim_marker_newline, Or.inl fullLine_marker_newline,
      joinChunks (second :: others), joinChunks_cons_cons first second others, ?_⟩
    exact ih (fun text ht => hunmarked text (List.mem_cons_of_mem first ht))
      (fun text ht => hclosed text (List.mem_cons_of_mem first ht))

theorem chunks_joinChunks {texts : List Text} (hne : texts ≠ [])
    (hunmarked : ∀ text ∈ texts, Unmarked text) (hclosed : ∀ text ∈ texts.dropLast, Closed text) :
    chunks (joinChunks texts) = texts := by
  obtain ⟨first, others, rfl⟩ := List.exists_cons_of_ne_nil hne
  rw [(division_joinChunks hunmarked hclosed).chunks_eq, textsOf, List.map_map]
  simp [Function.comp_def]

theorem unmarked_of_mem_chunks {source chunk : Text} (h : chunk ∈ chunks source) :
    Unmarked chunk := by
  obtain ⟨first, cuts, hdivision⟩ := exists_division source
  rw [hdivision.chunks_eq] at h
  exact hdivision.unmarked chunk h

/-- A source has one division, its chunks are the texts of it, and it has as many cuts as marker
lines. Joining is undone by cutting, and a chunk is not cut again. -/
theorem chunks_of_one_division (source : Text) :
    (∃ first cuts, Division source first cuts ∧ chunks source = textsOf first cuts ∧
      cuts.length = (source.lines.countP fun line => line.trim == marker) ∧
      ∀ first' cuts', Division source first' cuts' → first' = first ∧ cuts' = cuts) ∧
    (∀ texts : List Text, texts ≠ [] → (∀ text ∈ texts, Unmarked text) →
      (∀ text ∈ texts.dropLast, Closed text) → chunks (joinChunks texts) = texts) ∧
    ∀ chunk ∈ chunks source, chunks chunk = [chunk] := by
  refine ⟨?_, fun texts => chunks_joinChunks, fun chunk hchunk => ?_⟩
  · obtain ⟨first, cuts, h⟩ := exists_division source
    refine ⟨first, cuts, h, h.chunks_eq, ?_, fun first' cuts' h' => division_unique h' h⟩
    rw [← length_marks, h.marks_eq, List.length_map]
  · exact chunks_of_unmarked (unmarked_of_mem_chunks hchunk)

/-- Marker lines with carriage returns and wide spaces, the last one without a newline. -/
theorem chunks_of_one_division_at_spaced_marks :
    ("b\n".toList ∈ chunks "a\r\n\u2003// -----\r\nb\n// -----\t".toList ∧
      chunks "b\n".toList = ["b\n".toList]) ∧
    (∀ text ∈ ["a\n".toList, [], "// ---- -".toList], Unmarked text) ∧
    (∀ text ∈ ["a\n".toList, [], "// ---- -".toList].dropLast, Closed text) ∧
    chunks (joinChunks ["a\n".toList, [], "// ---- -".toList]) =
      ["a\n".toList, [], "// ---- -".toList] := by
  have hmem : "b\n".toList ∈ chunks "a\r\n\u2003// -----\r\nb\n// -----\t".toList := by decide
  have hunmarked : ∀ text ∈ ["a\n".toList, [], "// ---- -".toList], Unmarked text := by decide
  have hclosed : ∀ text ∈ ["a\n".toList, [], "// ---- -".toList].dropLast, Closed text := by decide
  exact ⟨⟨hmem, (chunks_of_one_division _).2.2 _ hmem⟩, hunmarked, hclosed,
    (chunks_of_one_division []).2.1 _ (by decide) hunmarked hclosed⟩

end IrConvert.Source
