import IrConvert.Bytes.Walk
import IrConvert.Text.Utf8
import Mathlib.Data.List.Basic

namespace IrConvert

namespace Text

variable {text other front : Text}

theorem encode_eq (text : Text) : encode text = text.utf8Encode := String.toByteArray_ofList

@[simp]
theorem encode_nil : encode [] = ByteArray.empty := by
  simp [encode_eq]

@[simp]
theorem encode_append (text other : Text) :
    encode (text ++ other) = encode text ++ encode other := by
  simp [encode_eq]

theorem encode_cons (c : Char) (rest : Text) : encode (c :: rest) = encode [c] ++ encode rest :=
  encode_append [c] rest

theorem decode?_encode (text : Text) : decode? (encode text) = some text :=
  (decode?_eq_some_iff _ _).2 rfl

@[simp]
theorem encode_inj : encode text = encode other ↔ text = other := by
  constructor
  · intro h
    have hdecode := congrArg decode? h
    simpa [decode?_encode] using hdecode
  · intro h
    rw [h]

@[simp]
theorem byteCount_append (text other : Text) :
    (text ++ other).byteCount = text.byteCount + other.byteCount := by
  simp [← size_encode]

theorem byteCount_concat (text : Text) (c : Char) :
    (text ++ [c]).byteCount = text.byteCount + c.utf8Size :=
  byteCount_append text [c]

theorem eq_nil_of_byteCount_eq_zero (h : text.byteCount = 0) : text = [] := by
  cases text with
  | nil => rfl
  | cons c rest =>
    have hpos := c.utf8Size_pos
    simp only [byteCount] at h
    omega

theorem toList_data_encode (text : Text) :
    (encode text).data.toList = text.flatMap String.utf8EncodeChar := by
  simp [encode_eq, List.utf8Encode]

theorem extract_encode (front middle back : Text) :
    (encode (front ++ (middle ++ back))).extract front.byteCount
      (front.byteCount + middle.byteCount) = encode middle := by
  simp only [encode_append, ← size_encode]
  rw [← Nat.add_zero (encode front).size, Nat.add_assoc, ByteArray.extract_append_size_add,
    Nat.zero_add]
  exact ByteArray.extract_append_eq_left rfl

/-- Bytes in front of an encoded text stand in front of it in characters too. -/
theorem prefix_of_encode_append {rest : ByteArray} (h : encode front ++ rest = encode text) :
    front <+: text := by
  rw [encode_eq, encode_eq] at h
  exact List.isPrefix_of_utf8Encode_append_eq_utf8Encode rest h

end Text

namespace Bytes

open Text (encode)

variable {text : Text} {offset start stop : ℕ}

theorem boundary_encode_iff :
    Boundary (encode text) offset ↔
      ∃ front back : Text, text = front ++ back ∧ offset = front.byteCount := by
  have hsize (word : String) : word.rawEndPos.byteIdx = Text.byteCount word.toList := by
    rw [← Text.size_encode, encode, String.ofList_toList]
    simp
  have hvalid : Boundary (encode text) offset ↔
      (String.Pos.Raw.mk offset).IsValid (String.ofList text) := by
    rw [String.Pos.Raw.isValid_iff_isUTF8FirstByte]
    simp only [Boundary, encode, String.toUTF8, String.size_toByteArray, String.Pos.Raw.ext_iff,
      String.Pos.Raw.lt_iff, String.byteIdx_rawEndPos, String.getUTF8Byte]
  rw [hvalid, String.Pos.Raw.isValid_iff_exists_append]
  constructor
  · rintro ⟨first, second, hsplit, hoffset⟩
    refine ⟨first.toList, second.toList, ?_, ?_⟩
    · simpa using congrArg String.toList hsplit
    · rw [← hsize, ← hoffset]
  · rintro ⟨front, back, rfl, rfl⟩
    refine ⟨String.ofList front, String.ofList back, String.ofList_append, ?_⟩
    rw [String.Pos.Raw.ext_iff, hsize, String.toList_ofList]

example : ¬ Boundary (encode ['é']) 1 := by decide

/-- Bytes behind an encoded text stand behind it in characters too. -/
theorem suffix_of_append_encode {first : ByteArray} {last : Text} (hne : last ≠ [])
    (h : first ++ encode last = encode text) : last <:+ text := by
  obtain ⟨c, rest, rfl⟩ := List.exists_cons_of_ne_nil hne
  have hstart : Boundary (encode text) first.size := by
    rw [← h, Text.encode_cons, Text.encode_eq [c], List.utf8Encode_singleton]
    refine Or.inr ⟨?_, ?_⟩
    · have hpos := c.utf8Size_pos
      simp
      omega
    · rw [ByteArray.getElem_append_right (Nat.le_refl _)]
      simp only [Nat.sub_self]
      exact ByteArray.isUTF8FirstByte_getElem_zero_utf8EncodeChar_append
  obtain ⟨front, back, rfl, hfront⟩ := boundary_encode_iff.1 hstart
  rw [← Text.size_encode] at hfront
  rw [Text.encode_append, ByteArray.append_eq_append_iff_of_size_eq_left hfront,
    Text.encode_inj] at h
  exact ⟨front, by rw [h.2]⟩

theorem sliceable_encode_iff :
    Sliceable (encode text) start stop ↔ ∃ front middle back : Text,
      text = front ++ (middle ++ back) ∧ start = front.byteCount ∧
        stop = front.byteCount + middle.byteCount := by
  constructor
  · intro h
    obtain ⟨front, rest, rfl, rfl⟩ := boundary_encode_iff.1 h.start_boundary
    obtain ⟨longer, back, hsplit, rfl⟩ := boundary_encode_iff.1 h.stop_boundary
    -- of two texts that the bytes start with the one of fewer bytes is part of the other
    rcases List.prefix_or_prefix_of_prefix ⟨rest, rfl⟩ ⟨back, hsplit.symm⟩ with hle | hge
    · obtain ⟨middle, rfl⟩ := hle
      refine ⟨front, middle, back, ?_, rfl, Text.byteCount_append _ _⟩
      rw [hsplit, List.append_assoc]
    · obtain ⟨more, rfl⟩ := hge
      have hmore : Text.byteCount more = 0 := by
        have hle := h.start_le
        rw [Text.byteCount_append] at hle
        omega
      obtain rfl := Text.eq_nil_of_byteCount_eq_zero hmore
      exact ⟨longer, [], rest, by simp, by simp, rfl⟩
  · rintro ⟨front, middle, back, rfl, rfl, rfl⟩
    refine ⟨Nat.le_add_right _ _, ?_, ?_, ?_⟩
    · rw [Text.size_encode]
      simp only [Text.byteCount_append]
      omega
    · exact boundary_encode_iff.2 ⟨front, middle ++ back, rfl, rfl⟩
    · refine boundary_encode_iff.2 ⟨front ++ middle, back, (List.append_assoc ..).symm, ?_⟩
      rw [Text.byteCount_append]

theorem outcome_slice (front middle back : Text) :
    (slice (encode (front ++ (middle ++ back))) front.byteCount
      (front.byteCount + middle.byteCount)).outcome = .done (encode middle) := by
  have hsliceable := sliceable_encode_iff.2 ⟨front, middle, back, rfl, rfl, rfl⟩
  have hextract := Text.extract_encode front middle back
  exact (if_pos hsliceable).trans (congrArg Outcome.done hextract)

/-- A slice up to the end of the bytes. -/
theorem outcome_slice_rest (front rest : Text) :
    (slice (encode (front ++ rest)) front.byteCount (encode (front ++ rest)).size).outcome =
      .done (encode rest) := by
  have h := outcome_slice front rest []
  rwa [List.append_nil, ← Text.byteCount_append, ← Text.size_encode (front ++ rest)] at h

end Bytes

end IrConvert
