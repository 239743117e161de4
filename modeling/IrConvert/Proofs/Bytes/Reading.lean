import IrConvert.Bytes.Reading
import IrConvert.Proofs.Bytes.Encoding
import IrConvert.Proofs.Dialect.Written
import IrConvert.Proofs.Text.Lines

namespace IrConvert

open Text (encode)

namespace Text

theorem after?_append (front middle text : Text) :
    after? (front ++ middle) text = (after? front text).bind (after? middle) := by
  ext rest
  rw [Option.bind_eq_some_iff]
  simp only [Dialect.after?_eq_some_iff]
  constructor
  · intro h
    exact ⟨middle ++ rest, by rw [← h, List.append_assoc], rfl⟩
  · rintro ⟨behind, hfront, rfl⟩
    rw [← hfront, List.append_assoc]

theorem withoutEnd_cons {c : Char} {rest : Text} (hne : rest ≠ [])
    (h : c :: rest ≠ ['\r', '\n']) : withoutEnd (c :: rest) = c :: withoutEnd rest := by
  rw [withoutEnd]
  · intro _ hrest
    exact hne hrest
  · intro hc hrest
    exact h (by rw [hc, hrest])

theorem withoutEnd_append_return (front : Text) : withoutEnd (front ++ ['\r', '\n']) = front := by
  induction front with
  | nil => rfl
  | cons c front ih =>
    have hreturn : c :: (front ++ ['\r', '\n']) ≠ ['\r', '\n'] := by
      intro he
      simpa using congrArg List.length he
    rw [List.cons_append, withoutEnd_cons (by simp) hreturn, ih]

theorem withoutEnd_append_newline {front : Text} (h : ¬ ['\r'] <:+ front) :
    withoutEnd (front ++ ['\n']) = front := by
  induction front with
  | nil => rfl
  | cons c front ih =>
    have hrest : ¬ ['\r'] <:+ front := fun hsuffix => h (hsuffix.trans (List.suffix_cons c front))
    have hreturn : c :: (front ++ ['\n']) ≠ ['\r', '\n'] := by
      intro he
      obtain ⟨rfl, hfront⟩ := List.cons.inj he
      obtain rfl : front = [] := by simpa using hfront
      exact h List.suffix_rfl
    rw [List.cons_append, withoutEnd_cons (by simp) hreturn, ih hrest]

theorem withoutEnd_of_open {piece : Text} (h : ¬ ['\n'] <:+ piece) : withoutEnd piece = piece := by
  induction piece using withoutEnd.induct with
  | case1 => rfl
  | case2 => exact absurd List.suffix_rfl h
  | case3 => exact absurd (List.suffix_cons '\r' ['\n']) h
  | case4 c rest hnewline hreturn ih =>
    rw [withoutEnd, ih fun hsuffix => h (hsuffix.trans (List.suffix_cons c rest))] <;> assumption

end Text

namespace Bytes

variable {text front last : Text}

theorem extract_append_extract (bytes : ByteArray) {offset : ℕ} (h : offset ≤ bytes.size) :
    bytes.extract 0 offset ++ bytes.extract offset bytes.size = bytes := by
  rw [← ByteArray.extract_eq_extract_append_extract offset (Nat.zero_le _) h,
    ByteArray.extract_zero_size]

theorem startsWith_encode_iff :
    startsWith (encode front) (encode text) = true ↔ front <+: text := by
  rw [startsWith, same_iff]
  constructor
  · intro h
    have hsize : (encode front).size ≤ (encode text).size := by
      have hsizes := congrArg ByteArray.size h
      rw [ByteArray.size_extract] at hsizes
      omega
    have hsplit := extract_append_extract (encode text) hsize
    rw [h] at hsplit
    exact Text.prefix_of_encode_append hsplit
  · rintro ⟨rest, rfl⟩
    rw [Text.encode_append]
    exact ByteArray.extract_append_eq_left rfl

theorem startsWith_encode (front text : Text) :
    startsWith (encode front) (encode text) = (Text.after? front text).isSome := by
  rw [Bool.eq_iff_iff, startsWith_encode_iff, Dialect.after?_isSome_iff]

theorem after?_encode (front text : Text) :
    after? (encode front) (encode text) = (Text.after? front text).map encode := by
  by_cases h : front <+: text
  · obtain ⟨rest, rfl⟩ := h
    have hrest : Text.after? front (front ++ rest) = some rest :=
      (Dialect.after?_eq_some_iff _ _ _).2 rfl
    rw [after?, if_pos (startsWith_encode_iff.2 (List.prefix_append front rest)), hrest,
      Text.encode_append, ByteArray.extract_append_eq_right rfl (ByteArray.size_append ..)]
    rfl
  · have hnone : Text.after? front text = none := by
      rw [← Option.not_isSome_iff_eq_none, Dialect.after?_isSome_iff]
      exact h
    rw [after?, if_neg (mt startsWith_encode_iff.1 h), hnone, Option.map_none]

theorem before?_encode_append (front last : Text) :
    before? (encode last) (encode (front ++ last)) = some (encode front) := by
  have hsize : (encode (front ++ last)).size - (encode last).size = (encode front).size := by
    rw [Text.encode_append, ByteArray.size_append, Nat.add_sub_cancel]
  rw [before?, hsize, Text.encode_append, ByteArray.extract_append_eq_left rfl,
    ByteArray.extract_append_eq_right rfl (ByteArray.size_append ..), if_pos (same_iff.2 rfl)]

theorem before?_encode_of_not_suffix (hne : last ≠ []) (h : ¬ last <:+ text) :
    before? (encode last) (encode text) = none := by
  rw [before?, if_neg]
  intro hlast
  have hsplit := extract_append_extract (encode text)
    (Nat.sub_le (encode text).size (encode last).size)
  rw [same_iff.1 hlast] at hsplit
  exact h (suffix_of_append_encode hne hsplit)

theorem cutLines_of_not_mem {bytes : List UInt8} (hne : bytes ≠ []) (h : newline ∉ bytes) :
    cutLines bytes = [bytes] := by
  induction bytes with
  | nil => exact absurd rfl hne
  | cons b rest ih =>
    rw [List.mem_cons, not_or] at h
    rw [cutLines, if_neg fun hb => h.1 hb.symm]
    rcases eq_or_ne rest [] with rfl | hrest
    · rfl
    · rw [ih hrest h.2]

theorem cutLines_append {bytes : List UInt8} (h : newline ∉ bytes) (rest : List UInt8) :
    cutLines (bytes ++ newline :: rest) = (bytes ++ [newline]) :: cutLines rest := by
  induction bytes with
  | nil => simp [cutLines]
  | cons b bytes ih =>
    rw [List.mem_cons, not_or] at h
    rw [List.cons_append, cutLines, if_neg fun hb => h.1 hb.symm, ih h.2]
    rfl

/-- The byte of a newline starts a character, so it does not stand inside of another one. -/
theorem eq_newline_of_mem {c : Char} (h : newline ∈ String.utf8EncodeChar c) : c = '\n' := by
  obtain ⟨i, hi, hbyte⟩ := List.getElem_of_mem h
  have hfirst : newline.IsUTF8FirstByte := by decide
  rw [← hbyte, UInt8.isUTF8FirstByte_getElem_utf8EncodeChar] at hfirst
  subst hfirst
  obtain ⟨b, tail, hcons⟩ := List.exists_cons_of_ne_nil (String.utf8EncodeChar_ne_nil (c := c))
  obtain rfl : b = newline := by simpa [hcons] using hbyte
  have hencode : encode ['\n'] ++ tail.toByteArray = encode [c] := by
    rw [Text.encode_eq [c], List.utf8Encode_singleton, hcons, Text.encode_eq,
      List.utf8Encode_singleton, ← List.toByteArray_append]
    rfl
  exact (List.cons_prefix_cons.1 (Text.prefix_of_encode_append hencode)).1.symm

theorem newline_not_mem_encode (h : '\n' ∉ text) : newline ∉ (encode text).data.toList := by
  rw [Text.toList_data_encode]
  intro hmem
  obtain ⟨c, hc, hbyte⟩ := List.mem_flatMap.1 hmem
  exact h (eq_newline_of_mem hbyte ▸ hc)

theorem toByteArray_encode (text : Text) : (encode text).data.toList.toByteArray = encode text := by
  ext1
  simp

theorem pieces_encode (text : Text) : pieces (encode text) = text.pieces.map encode := by
  induction text using Text.lineInduction with
  | nil => simp [pieces, cutLines, Text.pieces]
  | last line hne hopen =>
    have hbytes : (encode line).data.toList ≠ [] := by
      intro hnil
      apply hne
      rw [← Text.encode_inj, ← toByteArray_encode line, hnil, Text.encode_nil]
      rfl
    rw [pieces, cutLines_of_not_mem hbytes (newline_not_mem_encode hopen),
      Text.pieces_of_not_mem hne hopen, List.map_singleton, List.map_singleton, toByteArray_encode]
  | line full rest hfull ih =>
    rw [Text.pieces_fullLine_append hfull]
    obtain ⟨body, hbody, rfl⟩ := hfull
    have hsplit : (encode (body ++ ['\n'] ++ rest)).data.toList =
        (encode body).data.toList ++ newline :: (encode rest).data.toList := by
      simp only [Text.toList_data_encode, List.flatMap_append, List.append_assoc]
      rfl
    have hfull : (encode body).data.toList ++ [newline] =
        (encode (body ++ ['\n'])).data.toList := by
      simp only [Text.toList_data_encode, List.flatMap_append]
      rfl
    rw [pieces, hsplit, cutLines_append (newline_not_mem_encode hbody), List.map_cons, hfull,
      toByteArray_encode, List.map_cons, ← ih]
    rfl

theorem lineOf_encode (piece : Text) : lineOf (encode piece) = encode piece.withoutEnd := by
  by_cases hnewline : ['\n'] <:+ piece
  · obtain ⟨line, rfl⟩ := hnewline
    rw [lineOf, before?_encode_append]
    by_cases hreturn : ['\r'] <:+ line
    · obtain ⟨front, rfl⟩ := hreturn
      rw [List.append_assoc, List.singleton_append, Text.withoutEnd_append_return]
      simp only [before?_encode_append, Option.getD_some]
    · rw [Text.withoutEnd_append_newline hreturn]
      simp only [before?_encode_of_not_suffix (List.cons_ne_nil _ _) hreturn, Option.getD_none]
  · rw [lineOf, before?_encode_of_not_suffix (List.cons_ne_nil _ _) hnewline,
      Text.withoutEnd_of_open hnewline]

theorem lines_encode (text : Text) : lines (encode text) = text.lines.map encode := by
  rw [lines, pieces_encode, Text.lines, List.map_map, List.map_map]
  apply List.map_congr_left
  intro piece _
  rw [Function.comp_apply, Function.comp_apply, lineOf_encode]

theorem trim_encode (text : Text) : trim (encode text) = encode text.trim := by
  rw [trim, Text.decode?_encode]

def offsets (offset : ℕ) : Text → List (ℕ × Char)
  | [] => []
  | c :: rest => (offset, c) :: offsets (offset + c.utf8Size) rest

theorem utf8DecodeChar?_encode (front rest : Text) :
    (encode (front ++ rest)).utf8DecodeChar? front.byteCount = rest.head? := by
  have hrest : (encode (front ++ rest)).extract front.byteCount (encode (front ++ rest)).size =
      encode rest := by
    rw [Text.encode_append, ← Text.size_encode]
    exact ByteArray.extract_append_eq_right rfl (ByteArray.size_append ..)
  rw [ByteArray.utf8DecodeChar?_eq_utf8DecodeChar?_extract, hrest, Text.encode_eq]
  cases rest with
  | nil => rfl
  | cons c rest => exact List.utf8DecodeChar?_utf8Encode_cons

theorem charsFrom_of_none {bytes : ByteArray} {offset : ℕ}
    (h : bytes.utf8DecodeChar? offset = none) : charsFrom bytes offset = [] := by
  rw [charsFrom, dif_neg]
  simp [h]

theorem charsFrom_of_some {bytes : ByteArray} {offset : ℕ} {c : Char}
    (h : bytes.utf8DecodeChar? offset = some c) :
    charsFrom bytes offset = (offset, c) :: charsFrom bytes (offset + c.utf8Size) := by
  rw [charsFrom, dif_pos]
  · simp [ByteArray.utf8DecodeChar, h]
  · simp [h]

theorem charsFrom_encode (front rest : Text) :
    charsFrom (encode (front ++ rest)) front.byteCount = offsets front.byteCount rest := by
  have hdecode := utf8DecodeChar?_encode front rest
  induction rest generalizing front with
  | nil => exact charsFrom_of_none hdecode
  | cons c rest ih =>
    have hmore := ih (front ++ [c]) (utf8DecodeChar?_encode ..)
    rw [← List.append_cons, Text.byteCount_concat] at hmore
    rw [charsFrom_of_some hdecode, offsets, hmore]

theorem charsFrom_encode_zero (text : Text) : charsFrom (encode text) 0 = offsets 0 text :=
  charsFrom_encode [] text

/-- The first character that is not one of a run stands where the bytes of the run end. -/
theorem find?_offsets (run : Char → Bool) (offset : ℕ) (text : Text) :
    (offsets offset text).find? (fun place => !run place.2) =
      (text.dropWhile run).head?.map (offset + Text.byteCount (text.takeWhile run), ·) := by
  induction text generalizing offset with
  | nil => rfl
  | cons c rest ih =>
    cases hc : run c with
    | true =>
      rw [offsets, List.find?_cons_of_neg (by simp [hc]), ih, List.dropWhile_cons_of_pos hc,
        List.takeWhile_cons_of_pos hc, Text.byteCount, Nat.add_assoc]
    | false =>
      have hneg : ¬ run c = true := by simp [hc]
      rw [offsets, List.find?_cons_of_pos (by simp [hc]), List.dropWhile_cons_of_neg hneg,
        List.takeWhile_cons_of_neg hneg]
      rfl

end Bytes

end IrConvert
