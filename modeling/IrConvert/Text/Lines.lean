import IrConvert.Text.Basic

namespace IrConvert.Text

/-- Cuts after every newline. -/
def pieces : Text → List Text
  | [] => []
  | c :: rest =>
    if c = '\n' then ['\n'] :: pieces rest
    else match pieces rest with
      | [] => [[c]]
      | piece :: more => (c :: piece) :: more

/-- A piece without its line end, which is a newline or a carriage return and a newline. -/
def withoutEnd : Text → Text
  | [] => []
  | ['\n'] => []
  | ['\r', '\n'] => []
  | c :: rest => c :: withoutEnd rest

def lines (text : Text) : List Text := (pieces text).map withoutEnd

/-- Cuts at every separator and drops it. -/
def cutAt (separator : Char) : Text → List Text
  | [] => [[]]
  | c :: rest =>
    if c = separator then [] :: cutAt separator rest
    else match cutAt separator rest with
      | [] => [[c]]
      | part :: more => (c :: part) :: more

def rows (text : Text) : List Text := cutAt '\n' text

theorem flatten_pieces (text : Text) : (pieces text).flatten = text := by
  induction text with
  | nil => rfl
  | cons c rest ih =>
    simp only [pieces]
    split
    · simp_all
    · split <;> simp_all

theorem cutAt_ne_nil (separator : Char) (text : Text) : cutAt separator text ≠ [] := by
  cases text with
  | nil => simp [cutAt]
  | cons c rest =>
    simp only [cutAt]
    split
    · simp
    · split <;> simp

theorem joinWith_cutAt (separator : Char) (text : Text) :
    joinWith [separator] (cutAt separator text) = text := by
  induction text with
  | nil => rfl
  | cons c rest ih =>
    obtain ⟨part, more, h⟩ := List.exists_cons_of_ne_nil (cutAt_ne_nil separator rest)
    rw [h] at ih
    simp only [cutAt, h]
    split
    · next hc => subst hc; simp_all [joinWith, List.intercalate]
    · cases more <;> simp_all [joinWith, List.intercalate]

theorem joinRows_rows (text : Text) : joinRows (rows text) = text := joinWith_cutAt '\n' text

end IrConvert.Text
