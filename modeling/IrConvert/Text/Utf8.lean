import IrConvert.Text.Basic

namespace IrConvert.Text

def encode (text : Text) : ByteArray := (String.ofList text).toUTF8

/-- There is no text for bytes that are not valid UTF-8. -/
def decode? (bytes : ByteArray) : Option Text := (String.fromUTF8? bytes).map (·.toList)

/-- A text is read from its own bytes only. -/
theorem decode?_eq_some_iff (bytes : ByteArray) (text : Text) :
    decode? bytes = some text ↔ bytes = encode text := by
  have hvalid : (encode text).IsValidUTF8 := (String.ofList text).isValidUTF8
  rw [decode?, String.fromUTF8?]
  constructor
  · intro h
    split at h
    · obtain ⟨word, hword, rfl⟩ := Option.map_eq_some_iff.1 h
      rw [encode, String.ofList_toList, ← Option.some.inj hword]
      rfl
    · cases h
  · intro h
    rw [h, dif_pos hvalid]
    show some (String.ofList text).toList = some text
    rw [String.toList_ofList]

def byteCount : Text → Nat
  | [] => 0
  | c :: rest => c.utf8Size + byteCount rest

theorem size_encode (text : Text) : (encode text).size = text.byteCount := by
  induction text with
  | nil => rfl
  | cons c rest ih =>
    have one : [c].utf8Encode.size = c.utf8Size := by
      simp [List.utf8Encode, String.length_utf8EncodeChar]
    simp_all [encode, byteCount]

def isAscii (text : Text) : Bool := text.all (·.toNat < 128)

def wholeAt : Nat → Text → Bool
  | 0, _ => true
  | _ + 1, [] => false
  | offset + 1, c :: rest => c.utf8Size ≤ offset + 1 && wholeAt (offset + 1 - c.utf8Size) rest

theorem wholeAt_of_isAscii {text : Text} (h : text.isAscii = true) {offset : Nat}
    (hle : offset ≤ text.length) : wholeAt offset text = true := by
  induction text generalizing offset with
  | nil =>
    obtain rfl : offset = 0 := Nat.le_zero.1 hle
    rfl
  | cons c rest ih =>
    obtain ⟨hc, hrest⟩ : c.toNat < 128 ∧ isAscii rest = true := by simpa [isAscii] using h
    cases offset with
    | zero => rfl
    | succ offset =>
      have one : c.utf8Size = 1 := by
        rw [Char.utf8Size_eq_one_iff, UInt32.le_iff_toNat_le]
        exact Nat.le_of_lt_succ hc
      simp only [wholeAt, one, Nat.add_sub_cancel]
      simp [ih hrest (Nat.le_of_succ_le_succ hle)]

end IrConvert.Text
