import IrConvert.Proofs.Source.Blank

namespace IrConvert

open Text (Closed FullLine)

namespace Text

theorem map_trim_lines (text : Text) : text.lines.map trim = text.pieces.map trim := by
  rw [lines, List.map_map]
  exact List.map_congr_left fun piece _ => trim_withoutEnd piece

theorem withNewline_append {rest : Text} (h : rest ≠ []) (text : Text) :
    withNewline (text ++ rest) = text ++ withNewline rest := by
  rw [withNewline, withNewline, List.getLast?_append_of_ne_nil text h]
  split
  · rfl
  · exact List.append_assoc ..

theorem withNewline_withNewline (text : Text) : text.withNewline.withNewline = text.withNewline :=
  if_pos (getLast?_withNewline text)

/-- A newline at the end ends the last line; it does not start another one. -/
theorem map_trim_lines_withNewline {text : Text} (hne : text ≠ []) :
    text.withNewline.lines.map trim = text.lines.map trim := by
  rw [map_trim_lines, map_trim_lines]
  induction text using lineInduction with
  | nil => exact absurd rfl hne
  | last line hline hopen =>
    have hlast : line.getLast? ≠ some '\n' := fun h => hopen (List.mem_of_getLast? h)
    have hfull : FullLine (line ++ ['\n']) := ⟨line, hopen, rfl⟩
    have htrim : trim (line ++ ['\n']) = trim line :=
      trim_append_of_blank line (List.forall_mem_singleton.2 rfl)
    rw [withNewline, if_neg hlast, pieces_fullLine hfull, pieces_of_not_mem hline hopen,
      List.map_singleton, htrim, List.map_singleton]
  | line full rest hfull ih =>
    rcases eq_or_ne rest [] with rfl | hrest
    · obtain ⟨body, -, rfl⟩ := hfull
      rw [List.append_nil, withNewline, if_pos List.getLast?_concat]
    · rw [withNewline_append hrest, pieces_fullLine_append hfull, pieces_fullLine_append hfull,
        List.map_cons, List.map_cons, ih hrest]

end Text

namespace Source

theorem unmarked_withNewline {text : Text} (h : Unmarked text) : Unmarked text.withNewline := by
  rcases eq_or_ne text [] with rfl | hne
  · decide
  · have htrim : ∀ line ∈ text.lines.map Text.trim, line ≠ marker := List.forall_mem_map.2 h
    rw [← Text.map_trim_lines_withNewline hne] at htrim
    exact fun line hline => htrim line.trim (List.mem_map_of_mem hline)

theorem isBlank_eq_trim (source : Text) :
    isBlank source = (source.lines.map Text.trim).all fun line =>
      line.isEmpty || (Text.after? ['/', '/'] line).isSome := by
  rw [isBlank, List.all_map]
  rfl

theorem isBlank_withNewline (text : Text) : isBlank text.withNewline = isBlank text := by
  rcases eq_or_ne text [] with rfl | hne
  · decide
  · rw [isBlank_eq_trim, Text.map_trim_lines_withNewline hne, isBlank_eq_trim]

/-- The lines that are neither blank nor comments, without the white space around them. -/
def contentLines (source : Text) : List Text :=
  (source.lines.filter (!isBlankLine ·)).map Text.trim

theorem contentLines_eq_trim (source : Text) :
    contentLines source = (source.lines.map Text.trim).filter fun line =>
      !(line.isEmpty || (Text.after? ['/', '/'] line).isSome) := by
  rw [contentLines, List.filter_map]
  rfl

theorem contentLines_withNewline (text : Text) :
    contentLines text.withNewline = contentLines text := by
  rcases eq_or_ne text [] with rfl | hne
  · decide
  · rw [contentLines_eq_trim, Text.map_trim_lines_withNewline hne, contentLines_eq_trim]

theorem contentLines_append {text : Text} (h : Closed text) (other : Text) :
    contentLines (text ++ other) = contentLines text ++ contentLines other := by
  simp only [contentLines, Text.lines, Text.pieces_append h, List.map_append, List.filter_append]

theorem contentLines_of_isBlank {source : Text} (h : isBlank source = true) :
    contentLines source = [] := by
  rw [isBlank, List.all_eq_true] at h
  have hnone : source.lines.filter (!isBlankLine ·) = [] := by
    rw [List.filter_eq_nil_iff]
    intro line hline
    rw [h line hline]
    exact Bool.false_ne_true
  rw [contentLines, hnone, List.map_nil]

theorem Division.contentLines_eq {source first : Text} {cuts : List Cut}
    (h : Division source first cuts) :
    contentLines source = (textsOf first cuts).flatMap contentLines := by
  induction h using Division.cutInduction with
  | nil text hunmarked => simp [textsOf]
  | cons first cut cuts rest hclosed hunmarked htrim hwhole hrest ih =>
    -- a marker line is a comment, so it says nothing itself
    have hmark : contentLines (cut.mark ++ rest) = contentLines rest := by
      rcases hwhole with hfull | ⟨hopen, rfl⟩
      · rw [contentLines_append hfull.closed,
          contentLines_of_isBlank (isBlank_mark (.inl hfull) htrim), List.nil_append]
      · rw [List.append_nil, contentLines_of_isBlank (isBlank_mark (.inr hopen) htrim)]
        rfl
    rw [contentLines_append hclosed, hmark, ih, textsOf_cons, List.flatMap_cons]

theorem contentLines_eq_chunks (source : Text) :
    contentLines source = (chunks source).flatMap contentLines := by
  obtain ⟨first, cuts, h⟩ := exists_division source
  rw [h.chunks_eq]
  exact h.contentLines_eq

/-- Nothing is said in the chunks that are left out. -/
theorem contentLines_eq_contents (source : Text) :
    contentLines source = (contents source).flatMap contentLines := by
  rw [contentLines_eq_chunks, contents]
  induction chunks source with
  | nil => rfl
  | cons chunk chunks ih =>
    rw [List.flatMap_cons, ih]
    cases hblank : isBlank chunk with
    | true =>
      rw [List.filter_cons_of_neg (by simp [hblank]), contentLines_of_isBlank hblank,
        List.nil_append]
    | false => rw [List.filter_cons_of_pos (by simp [hblank]), List.flatMap_cons]

end Source

end IrConvert
