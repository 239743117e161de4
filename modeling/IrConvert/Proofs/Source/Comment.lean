import IrConvert.Proofs.Dialect.Shown
import IrConvert.Proofs.Source.Blank

namespace IrConvert

open Text (FullLine blankChar)
open Dialect (CommentStart occurrences occurrencesInLine verify)

namespace Text

def lineEnd (piece : Text) : Text := piece.drop piece.withoutEnd.length

theorem withoutEnd_append_lineEnd (piece : Text) : piece.withoutEnd ++ piece.lineEnd = piece := by
  obtain ⟨ending, he, -⟩ := withoutEnd_append piece
  exact List.prefix_iff_eq_append.1 ⟨ending, he⟩

theorem not_mem_withoutEnd_of_fullLine {full : Text} (h : FullLine full) :
    '\n' ∉ full.withoutEnd := by
  obtain ⟨body, hbody, rfl⟩ := h
  apply not_mem_withoutEnd
  rwa [List.dropLast_concat]

theorem exists_lineEnd_of_fullLine {full : Text} (h : FullLine full) :
    ∃ ending : Text, '\n' ∉ ending ∧ full.lineEnd = ending ++ ['\n'] := by
  have hfree := not_mem_withoutEnd_of_fullLine h
  obtain ⟨body, hbody, rfl⟩ := h
  have hfull := withoutEnd_append_lineEnd (body ++ ['\n'])
  rcases List.eq_nil_or_concat' (body ++ ['\n']).lineEnd with hnil | ⟨ending, last, hend⟩
  · -- without its end the line has lost the newline
    rw [hnil, List.append_nil] at hfull
    rw [hfull] at hfree
    exact absurd List.mem_concat_self hfree
  · rw [hend, ← List.append_assoc] at hfull
    obtain ⟨hinit, hlast⟩ := List.append_inj' hfull rfl
    obtain rfl := List.singleton_inj.1 hlast
    exact ⟨ending, fun hmem => hbody (hinit ▸ List.mem_append_right _ hmem), hend⟩

/-- An edit of one line that makes a line of it again leaves the other pieces as they are. -/
theorem pieces_modify {edit : Text → Text} (hfull : ∀ full, FullLine full → FullLine (edit full))
    (hopen : ∀ line, line ≠ [] → '\n' ∉ line → edit line ≠ [] ∧ '\n' ∉ edit line)
    (text : Text) (number : ℕ) :
    pieces (text.pieces.modify number edit).flatten = text.pieces.modify number edit := by
  induction text using lineInduction generalizing number with
  | nil => rw [pieces, List.modify_nil, List.flatten_nil, pieces]
  | last line hne hfree =>
    obtain ⟨hne', hfree'⟩ := hopen line hne hfree
    rw [pieces_of_not_mem hne hfree]
    cases number with
    | zero =>
      rw [List.modify_zero_cons, List.flatten_singleton]
      exact pieces_of_not_mem hne' hfree'
    | succ number =>
      rw [List.modify_succ_cons, List.modify_nil, List.flatten_singleton]
      exact pieces_of_not_mem hne hfree
  | line full rest h ih =>
    rw [pieces_fullLine_append h]
    cases number with
    | zero =>
      rw [List.modify_zero_cons, List.flatten_cons, flatten_pieces]
      exact pieces_fullLine_append (hfull full h) rest
    | succ number =>
      rw [List.modify_succ_cons, List.flatten_cons, pieces_fullLine_append h, ih]

theorem trimStart_append_slash (front rest : Text) :
    trimStart (front ++ '/' :: rest) = trimStart front ++ '/' :: rest := by
  rw [trimStart, List.dropWhile_append, trimStart]
  split
  · next hnil =>
    rw [List.isEmpty_iff.1 hnil, List.nil_append]
    rfl
  · rfl

/-- A piece with `comment` between the two characters in a column and its line end. -/
def withComment (piece : Text) (column : ℕ) (comment : Text) : Text :=
  piece.withoutEnd.take (column + 2) ++ (comment ++ piece.lineEnd)

variable {comment : Text}

theorem fullLine_withComment (hcomment : '\n' ∉ comment) (column : ℕ) {full : Text}
    (h : FullLine full) : FullLine (full.withComment column comment) := by
  obtain ⟨ending, hfree, hend⟩ := exists_lineEnd_of_fullLine h
  refine ⟨full.withoutEnd.take (column + 2) ++ (comment ++ ending), ?_, ?_⟩
  · apply List.not_mem_append _ (List.not_mem_append hcomment hfree)
    exact fun hmem => not_mem_withoutEnd_of_fullLine h (List.mem_of_mem_take hmem)
  · rw [withComment, hend]
    simp only [List.append_assoc]

theorem withComment_of_not_mem (hcomment : '\n' ∉ comment) (column : ℕ) {line : Text}
    (hne : line ≠ []) (h : '\n' ∉ line) :
    line.withComment column comment ≠ [] ∧ '\n' ∉ line.withComment column comment := by
  have hline := withoutEnd_append_lineEnd line
  constructor
  · intro hnil
    obtain ⟨htake, hrest⟩ := List.append_eq_nil_iff.1 hnil
    obtain ⟨-, hend⟩ := List.append_eq_nil_iff.1 hrest
    have hbody : line.withoutEnd = [] := (List.take_eq_nil_iff.1 htake).resolve_left (by omega)
    rw [hend, hbody] at hline
    exact hne hline.symm
  · rw [← hline, List.mem_append, not_or] at h
    apply List.not_mem_append _ (List.not_mem_append hcomment h.2)
    exact fun hmem => h.1 (List.mem_of_mem_take hmem)

end Text

namespace Dialect

theorem CommentStart.cut {chars : Text} {column : ℕ} (h : CommentStart chars column) :
    ∃ front old : Text, chars = front ++ '/' :: '/' :: old ∧ front.length = column := by
  obtain ⟨hfirst, hsecond, -⟩ := h
  have hlt : column < chars.length := (List.getElem?_eq_some_iff.1 hfirst).1
  refine ⟨chars.take column, chars.drop (column + 2), ?_, List.length_take_of_le hlt.le⟩
  have hdrop : chars.drop column = '/' :: '/' :: chars.drop (column + 2) := by
    rw [List.drop_eq_getElem?_toList_append, hfirst, List.drop_eq_getElem?_toList_append, hsecond]
    rfl
  rw [← hdrop, List.take_append_drop]

/-- A scan that comes to a comment does not tell what is in it. -/
theorem Reached.scan_comment {chars : Text} {number : ℕ} {front old : Text} (new : Text) :
    ∀ {column : ℕ} {inString : Bool} {before : Option Char},
      Reached chars column inString before (front ++ '/' :: '/' :: old) →
      CommentStart chars (column + front.length) →
      scan number inString before column (front ++ '/' :: '/' :: new) =
        scan number inString before column (front ++ '/' :: '/' :: old) := by
  induction front with
  | nil =>
    intro column inString before h hstart
    have hslashes := h.commentStart_iff.2 hstart
    rw [List.nil_append, List.nil_append, scan, scan]
    exact (if_pos hslashes).trans (if_pos hslashes).symm
  | cons c front ih =>
    intro column inString before h hstart
    have hhead : (front ++ '/' :: '/' :: new).head? = (front ++ '/' :: '/' :: old).head? := by
      cases front <;> rfl
    have hat (rest : Text) : operationAt? inString before (c :: (front ++ '/' :: '/' :: rest)) =
        operationAt? inString before (c :: front) :=
      (stops_slash ('/' :: rest)).operationAt?_append inString before (c :: front)
    rw [List.cons_append, List.cons_append, scan, scan, hhead, hat, hat]
    by_cases hc : CommentStart chars column
    · have hslashes := h.commentStart_iff.2 hc
      exact (if_pos hslashes).trans (if_pos hslashes).symm
    · rw [List.length_cons, ← Nat.add_assoc, Nat.add_right_comm] at hstart
      rw [ih (h.step hc) hstart]

theorem occurrencesInLine_comment {front old : Text}
    (h : CommentStart (front ++ '/' :: '/' :: old) front.length) (new : Text) (number : ℕ) :
    occurrencesInLine number (front ++ '/' :: '/' :: new) =
      occurrencesInLine number (front ++ '/' :: '/' :: old) := by
  apply (Reached.start _).scan_comment new
  rwa [Nat.zero_add]

theorem firstUndeclared?_congr {source other : Text} (h : occurrences other = occurrences source) :
    firstUndeclared? other = firstUndeclared? source := by
  rw [firstUndeclared?, h, firstUndeclared?]

/-- Two sources with the same operations are refused for the same one in the same place. -/
theorem exists_same_refusal {source other : Text} (h : occurrences other = occurrences source)
    {undeclared : Undeclared} (hfailed : verify source = .failed undeclared) :
    ∃ undeclared', verify other = .failed undeclared' ∧ undeclared'.name = undeclared.name ∧
      undeclared'.excerpt.number = undeclared.excerpt.number ∧
      undeclared'.excerpt.column = undeclared.excerpt.column := by
  cases hfound : firstUndeclared? source with
  | none =>
    rw [verify, hfound] at hfailed
    cases hfailed
  | some o =>
    obtain ⟨excerpt, hexcerpt, hsource⟩ := verify_of_firstUndeclared? hfound
    obtain ⟨excerpt', hexcerpt', hother⟩ :=
      verify_of_firstUndeclared? ((firstUndeclared?_congr h).trans hfound)
    obtain rfl := Outcome.failed.inj (hfailed.symm.trans hsource)
    have hshown := Text.Excerpt.ShownOf.of_of? hexcerpt
    have hshown' := Text.Excerpt.ShownOf.of_of? hexcerpt'
    exact ⟨_, hother, rfl, hshown'.number_eq.trans hshown.number_eq.symm,
      hshown'.column_eq.trans hshown.column_eq.symm⟩

end Dialect

namespace Source

theorem slashes_prefix_iff (front rest : Text) :
    ['/', '/'] <+: front ++ '/' :: '/' :: rest ↔ ['/', '/'] <+: front ++ ['/', '/'] := by
  rcases front with _ | ⟨c, _ | ⟨d, front⟩⟩ <;> simp

/-- Behind the first two slashes of a line nothing tells whether it is blank. -/
theorem isBlankLine_slashes (front old new : Text) :
    isBlankLine (front ++ '/' :: '/' :: new) = isBlankLine (front ++ '/' :: '/' :: old) := by
  have hiff (rest : Text) : isBlankLine (front ++ '/' :: '/' :: rest) = true ↔
      ['/', '/'] <+: front.trimStart ++ ['/', '/'] := by
    have hslash : ¬ ∀ c ∈ front ++ '/' :: '/' :: rest, blankChar c = true := fun hall =>
      Text.ne_of_blankChar (hall '/' (List.mem_append_right front List.mem_cons_self)) rfl rfl
    rw [isBlankLine_iff, Text.trimStart_append_slash, slashes_prefix_iff]
    exact or_iff_right hslash
  rw [Bool.eq_iff_iff, hiff, hiff]

/-- The source with `comment` in place of what stands in a line after the two characters in a
column. -/
def recomment (source : Text) (number column : ℕ) (comment : Text) : Text :=
  (source.pieces.modify number (·.withComment column comment)).flatten

section Recomment

variable {source chars comment : Text} {number column : ℕ}

/-- The two sources have the same pieces but for one. -/
theorem exists_pieces_recomment (hline : source.lines[number]? = some chars) (column : ℕ)
    (hcomment : '\n' ∉ comment) :
    ∃ (before : List Text) (piece : Text) (after : List Text),
      source.pieces = before ++ piece :: after ∧ piece.withoutEnd = chars ∧
      (recomment source number column comment).pieces =
        before ++ piece.withComment column comment :: after := by
  have hpieces := Text.pieces_modify
    (fun _ hfull => Text.fullLine_withComment hcomment column hfull)
    (fun _ hne hfree => Text.withComment_of_not_mem hcomment column hne hfree) source number
  obtain ⟨hlt, -⟩ := List.getElem?_eq_some_iff.1 hline
  rw [Text.lines, List.length_map] at hlt
  obtain ⟨before, piece, after, hsource, rfl, hother⟩ :=
    List.exists_of_modify (fun piece : Text => piece.withComment column comment) hlt
  refine ⟨before, piece, after, hsource, ?_, hpieces.trans hother⟩
  have hlength : (before.map Text.withoutEnd).length = before.length := List.length_map ..
  rw [Text.lines, hsource, List.map_append, List.map_cons, ← hlength,
    List.getElem?_append_right le_rfl, Nat.sub_self] at hline
  exact Option.some.inj hline

/-- The line of a comment, with another one in its place. -/
theorem exists_cut_withComment {piece : Text} (h : CommentStart piece.withoutEnd column) :
    ∃ front old : Text, piece.withoutEnd = front ++ '/' :: '/' :: old ∧ front.length = column ∧
      piece.withComment column comment = front ++ '/' :: '/' :: (comment ++ piece.lineEnd) := by
  obtain ⟨front, old, hcut, rfl⟩ := h.cut
  refine ⟨front, old, hcut, rfl, ?_⟩
  rw [Text.withComment, hcut, List.take_length_add_append]
  simp

theorem occurrencesInLine_withComment {piece : Text} (h : CommentStart piece.withoutEnd column)
    (number : ℕ) :
    occurrencesInLine number (piece.withComment column comment) =
      occurrencesInLine number piece := by
  obtain ⟨front, old, hcut, rfl, hnew⟩ := @exists_cut_withComment comment _ _ h
  rw [hcut] at h
  rw [hnew, Dialect.occurrencesInLine_comment h, ← hcut, Dialect.occurrencesInLine_withoutEnd]

theorem isBlankLine_withComment {piece : Text} (h : CommentStart piece.withoutEnd column) :
    isBlankLine (piece.withComment column comment) = isBlankLine piece := by
  obtain ⟨front, old, hcut, -, hnew⟩ := @exists_cut_withComment comment _ _ h
  rw [hnew, isBlankLine_slashes front old, ← hcut, isBlankLine_withoutEnd]

theorem occurrences_of_pieces {text piece : Text} {before after : List Text}
    (h : text.pieces = before ++ piece :: after) :
    occurrences text = before.zipIdx.flatMap (fun p => occurrencesInLine p.2 p.1) ++
      (occurrencesInLine before.length piece ++
        (after.zipIdx (before.length + 1)).flatMap fun p => occurrencesInLine p.2 p.1) := by
  rw [Dialect.occurrences_eq, h, List.zipIdx_append, List.flatMap_append, List.zipIdx_cons,
    List.flatMap_cons, Nat.zero_add]

/-- What is written in a comment makes no difference to what is found in a source, nor to whether
it is let through or blank. -/
theorem comment_unseen (hline : source.lines[number]? = some chars)
    (hstart : CommentStart chars column) (hcomment : '\n' ∉ comment) :
    let other := recomment source number column comment
    occurrences other = occurrences source ∧ isBlank other = isBlank source ∧
      (verify other = .done () ↔ verify source = .done ()) ∧
      ∀ undeclared, verify source = .failed undeclared →
        ∃ undeclared', verify other = .failed undeclared' ∧
          undeclared'.name = undeclared.name ∧
          undeclared'.excerpt.number = undeclared.excerpt.number ∧
          undeclared'.excerpt.column = undeclared.excerpt.column := by
  intro other
  obtain ⟨before, piece, after, hsource, rfl, hother⟩ :=
    exists_pieces_recomment hline column hcomment
  have hoccurrences : occurrences other = occurrences source := by
    rw [occurrences_of_pieces hother, occurrences_of_pieces hsource,
      occurrencesInLine_withComment hstart]
  refine ⟨hoccurrences, ?_, ?_, fun _ => Dialect.exists_same_refusal hoccurrences⟩
  · rw [isBlank_eq, isBlank_eq, hother, hsource, List.all_append, List.all_append, List.all_cons,
      List.all_cons, isBlankLine_withComment hstart]
  · rw [Dialect.verify_eq_done_iff, Dialect.verify_eq_done_iff, hoccurrences]

end Recomment

def commented : Text := "f\r\n\"q\" graphblas.a//b\r\nc"

def lure : Text := "\"\\ graphblas.b\r"

theorem comment_unseen_of_lure :
    recomment commented 1 15 lure = "f\r\n\"q\" graphblas.a//\"\\ graphblas.b\r\r\nc".toList ∧
      occurrences (recomment commented 1 15 lure) = [⟨1, 4, "graphblas.a".toList⟩] ∧
      isBlank (recomment commented 1 15 lure) = false ∧
      ∃ undeclared, verify (recomment commented 1 15 lure) = .failed undeclared ∧
        undeclared.name = "graphblas.a".toList ∧ undeclared.excerpt.number = 1 ∧
        undeclared.excerpt.column = 4 := by
  have hline : commented.lines[1]? = some "\"q\" graphblas.a//b".toList := by decide +kernel
  have hstart : CommentStart "\"q\" graphblas.a//b".toList 15 :=
    ⟨by decide +kernel, by decide +kernel, by decide +kernel⟩
  have hfound : occurrences commented = [⟨1, 4, "graphblas.a".toList⟩] := by decide +kernel
  have hblank : isBlank commented = false := by decide +kernel
  have hfailed : verify commented = .failed ⟨"graphblas.a".toList,
      ⟨some ['f'], "\"q\" graphblas.a//b".toList, 1, 4⟩⟩ := by decide +kernel
  have hfree : '\n' ∉ lure := by decide +kernel
  obtain ⟨hsame, hsameBlank, -, hrefused⟩ := comment_unseen hline hstart hfree
  exact ⟨by decide +kernel, hsame.trans hfound, hsameBlank.trans hblank, hrefused _ hfailed⟩

end Source

end IrConvert
