import IrConvert.Bytes.Scan
import IrConvert.Proofs.Bytes.Reading
import IrConvert.Proofs.Source.Blank

namespace IrConvert.Bytes

open Text (encode)
open Source (isMarker chunksOfPieces)

/-- A cutting has the open chunk between its two counts and the pieces to come after them. -/
structure Cutting (source front opened : Text) (rest : List Text) (start offset : ℕ) : Prop where
  source_eq : source = front ++ (opened ++ rest.flatten)
  start_eq : start = front.byteCount
  offset_eq : offset = front.byteCount + opened.byteCount

section Cutting

variable {source front opened piece : Text} {rest : List Text} {start offset : ℕ}

theorem Cutting.whole (source : Text) : Cutting source [] [] source.pieces 0 0 where
  source_eq := by simp [Text.flatten_pieces]
  start_eq := rfl
  offset_eq := rfl

theorem Cutting.keep (h : Cutting source front opened (piece :: rest) start offset) :
    Cutting source front (opened ++ piece) rest start (offset + (encode piece).size) where
  source_eq := by simp [h.source_eq]
  start_eq := h.start_eq
  offset_eq := by rw [h.offset_eq, Text.size_encode, Text.byteCount_append, Nat.add_assoc]

theorem Cutting.cut (h : Cutting source front opened (piece :: rest) start offset) :
    Cutting source (front ++ (opened ++ piece)) [] rest (offset + (encode piece).size)
      (offset + (encode piece).size) := by
  have hoffset : offset + (encode piece).size = (front ++ (opened ++ piece)).byteCount := by
    rw [h.offset_eq, Text.size_encode]
    simp only [Text.byteCount_append]
    omega
  refine ⟨?_, hoffset, hoffset⟩
  simp [h.source_eq]

theorem Cutting.outcome_slice (h : Cutting source front opened rest start offset) :
    (slice (encode source) start offset).outcome = .done (encode opened) := by
  rw [h.source_eq, h.start_eq, h.offset_eq]
  exact Bytes.outcome_slice front opened rest.flatten

theorem Cutting.outcome_slice_rest (h : Cutting source front opened [] start offset) :
    (slice (encode source) start (encode source).size).outcome = .done (encode opened) := by
  rw [h.source_eq, h.start_eq, List.flatten_nil, List.append_nil]
  exact Bytes.outcome_slice_rest front opened

theorem same_trim_encode_marker (piece : Text) :
    same (trim (encode piece)) (encode Source.marker) = isMarker piece := by
  rw [Bool.eq_iff_iff, same_iff, trim_encode, Text.encode_inj, Source.isMarker_iff]

/-- From any piece on, the cuts are the chunks, the first one with what is open before it. -/
theorem Cutting.outcome_chunksFrom {chunk : Text} {others : List Text}
    (h : Cutting source front opened rest start offset)
    (hchunks : chunksOfPieces rest = chunk :: others) :
    (chunksFrom (encode source) start offset (rest.map encode)).outcome =
      .done (((opened ++ chunk) :: others).map encode) := by
  induction rest generalizing front opened start offset chunk others with
  | nil =>
    obtain ⟨rfl, rfl⟩ := List.cons.inj hchunks
    rw [List.map_nil, chunksFrom, Walk.outcome_bind_of_done h.outcome_slice_rest,
      List.append_nil]
    rfl
  | cons piece rest ih =>
    obtain ⟨next, more, hrest⟩ := List.exists_cons_of_ne_nil (Source.chunksOfPieces_ne_nil rest)
    rw [List.map_cons, chunksFrom, same_trim_encode_marker]
    cases hmarker : isMarker piece with
    | true =>
      rw [Source.chunksOfPieces_cons_of_marker rest hmarker, hrest] at hchunks
      obtain ⟨rfl, rfl⟩ := List.cons.inj hchunks
      rw [if_pos rfl, Walk.outcome_bind_of_done h.outcome_slice,
        Walk.outcome_bind_of_done (ih h.cut hrest), List.append_nil]
      rfl
    | false =>
      rw [Source.chunksOfPieces_cons_of_unmarked hmarker hrest] at hchunks
      obtain ⟨rfl, rfl⟩ := List.cons.inj hchunks
      rw [if_neg Bool.false_ne_true, ih h.keep hrest, List.append_assoc]

end Cutting

theorem outcome_chunks (source : Text) :
    (chunks (encode source)).outcome = .done ((Source.chunks source).map encode) := by
  obtain ⟨chunk, others, h⟩ :=
    List.exists_cons_of_ne_nil (Source.chunksOfPieces_ne_nil source.pieces)
  rw [chunks, pieces_encode, (Cutting.whole source).outcome_chunksFrom h, Source.chunks, h,
    List.nil_append]

end IrConvert.Bytes
