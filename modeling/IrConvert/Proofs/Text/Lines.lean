import IrConvert.Text.Basic
import IrConvert.Text.Lines
import Mathlib.Data.List.TakeWhile

namespace IrConvert.Text

/-- Empty, or with a newline at its end. -/
def Closed (text : Text) : Prop := text = [] ∨ text.getLast? = some '\n'

instance : DecidablePred Closed := fun text =>
  inferInstanceAs (Decidable (text = [] ∨ text.getLast? = some '\n'))

/-- A line with its end: the one newline in it stands there. -/
def FullLine (text : Text) : Prop := ∃ body : Text, '\n' ∉ body ∧ text = body ++ ['\n']

theorem closed_nil : Closed [] := Or.inl rfl

theorem FullLine.closed {text : Text} (h : FullLine text) : Closed text := by
  obtain ⟨body, -, rfl⟩ := h
  exact Or.inr List.getLast?_concat

theorem Closed.append {text other : Text} (h : Closed text) (h' : Closed other) :
    Closed (text ++ other) := by
  rcases h' with rfl | h'
  · rwa [List.append_nil]
  · refine Or.inr ?_
    rw [List.getLast?_append, h', Option.some_or]

theorem Closed.of_cons {c : Char} {rest : Text} (h : Closed (c :: rest)) : Closed rest := by
  rcases h with h | h
  · cases h
  · cases rest with
    | nil => exact closed_nil
    | cons d more => exact Or.inr (by rwa [List.getLast?_cons_cons] at h)

/-- A closed text goes on after every character but a newline. -/
theorem Closed.tail_ne_nil {c : Char} {rest : Text} (h : Closed (c :: rest)) (hc : c ≠ '\n') :
    rest ≠ [] := by
  intro hnil
  subst hnil
  rcases h with h | h
  · cases h
  · exact hc (Option.some.inj h)

theorem getLast?_withNewline (text : Text) : (withNewline text).getLast? = some '\n' := by
  unfold withNewline
  split
  · assumption
  · exact List.getLast?_concat

@[elab_as_elim]
theorem lineInduction {motive : Text → Prop} (nil : motive [])
    (last : ∀ line : Text, line ≠ [] → '\n' ∉ line → motive line)
    (line : ∀ full rest : Text, FullLine full → motive rest → motive (full ++ rest))
    (text : Text) : motive text := by
  induction hn : text.length using Nat.strongRecOn generalizing text with
  | _ n ih =>
    by_cases hmem : '\n' ∈ text
    · -- the first newline ends a line, and what is after it is shorter
      obtain ⟨body, rest, rfl, hbody⟩ := List.eq_append_cons_of_mem hmem
      have hlt : rest.length < n := by
        rw [← hn, List.length_append, List.length_cons]
        omega
      rw [List.append_cons]
      exact line _ rest ⟨body, hbody, rfl⟩ (ih rest.length hlt rest rfl)
    · rcases eq_or_ne text [] with rfl | hne
      · exact nil
      · exact last text hne hmem

theorem pieces_ne_nil {text : Text} (h : text ≠ []) : pieces text ≠ [] := by
  intro he
  apply h
  rw [← flatten_pieces text, he, List.flatten_nil]

theorem pieces_cons_of_ne {c : Char} {rest piece : Text} {more : List Text} (hc : c ≠ '\n')
    (h : pieces rest = piece :: more) : pieces (c :: rest) = (c :: piece) :: more := by
  rw [pieces, if_neg hc, h]

theorem pieces_of_not_mem {line : Text} (hne : line ≠ []) (h : '\n' ∉ line) :
    pieces line = [line] := by
  induction line with
  | nil => exact absurd rfl hne
  | cons c rest ih =>
    have hc : c ≠ '\n' := fun he => h (he ▸ List.mem_cons_self)
    rcases eq_or_ne rest [] with rfl | hrest
    · rw [pieces, if_neg hc, pieces]
    · exact pieces_cons_of_ne hc (ih hrest fun hm => h (List.mem_cons_of_mem c hm))

theorem pieces_append {text : Text} (h : Closed text) (other : Text) :
    pieces (text ++ other) = pieces text ++ pieces other := by
  induction text with
  | nil => rfl
  | cons c rest ih =>
    have hrest := ih h.of_cons
    by_cases hc : c = '\n'
    · simp only [List.cons_append, pieces, if_pos hc, hrest]
    · -- a closed text does not end in `c`, so the piece of `c` is one of `rest`
      have hne : rest ≠ [] := h.tail_ne_nil hc
      obtain ⟨piece, more, hp⟩ := List.exists_cons_of_ne_nil (pieces_ne_nil hne)
      rw [hp] at hrest
      rw [List.cons_append, pieces_cons_of_ne hc hrest, pieces_cons_of_ne hc hp]
      rfl

theorem pieces_fullLine {full : Text} (h : FullLine full) : pieces full = [full] := by
  obtain ⟨body, hbody, rfl⟩ := h
  induction body with
  | nil => rfl
  | cons c rest ih =>
    have hc : c ≠ '\n' := fun he => hbody (he ▸ List.mem_cons_self)
    exact pieces_cons_of_ne hc (ih fun hm => hbody (List.mem_cons_of_mem c hm))

theorem pieces_fullLine_append {full : Text} (h : FullLine full) (rest : Text) :
    pieces (full ++ rest) = full :: pieces rest := by
  rw [pieces_append h.closed, pieces_fullLine h, List.singleton_append]

/-- Of a closed text every piece has the one newline that ends it. -/
theorem length_pieces {text : Text} (h : Closed text) :
    (pieces text).length = text.count '\n' := by
  induction text with
  | nil => rfl
  | cons c rest ih =>
    have hrest := ih h.of_cons
    by_cases hc : c = '\n'
    · rw [hc, pieces, if_pos rfl, List.length_cons, hrest, List.count_cons_self]
    · have hne : rest ≠ [] := h.tail_ne_nil hc
      obtain ⟨piece, more, hp⟩ := List.exists_cons_of_ne_nil (pieces_ne_nil hne)
      rw [pieces_cons_of_ne hc hp, List.count_cons_of_ne hc, ← hrest, hp]
      rfl

theorem withoutEnd_append (piece : Text) :
    ∃ ending : Text, withoutEnd piece ++ ending = piece ∧ ∀ c ∈ ending, blankChar c = true := by
  induction piece using withoutEnd.induct with
  | case1 => exact ⟨[], rfl, by simp⟩
  | case2 => exact ⟨['\n'], rfl, List.forall_mem_singleton.2 rfl⟩
  | case3 =>
    exact ⟨['\r', '\n'], rfl, List.forall_mem_cons.2 ⟨rfl, List.forall_mem_singleton.2 rfl⟩⟩
  | case4 c rest _ _ ih =>
    obtain ⟨ending, he, hblank⟩ := ih
    refine ⟨ending, ?_, hblank⟩
    rw [withoutEnd, List.cons_append, he] <;> assumption

theorem trimEnd_append_of_blank (text : Text) {ending : Text}
    (h : ∀ c ∈ ending, blankChar c = true) : trimEnd (text ++ ending) = trimEnd text := by
  have hreverse : ∀ c ∈ ending.reverse, blankChar c = true := fun c hc =>
    h c (List.mem_reverse.1 hc)
  rw [trimEnd, List.reverse_append, List.dropWhile_append_of_pos hreverse, trimEnd]

theorem trim_append_of_blank (text : Text) {ending : Text}
    (h : ∀ c ∈ ending, blankChar c = true) : trim (text ++ ending) = trim text := by
  rw [trim, trim, trimStart, trimStart, List.dropWhile_append]
  split
  · next hnil =>
    -- the text is blank itself, and the blanks at the end go with it
    have hend : ending.dropWhile blankChar = [] := List.dropWhile_eq_nil_iff.2 h
    rw [List.isEmpty_iff.1 hnil, hend]
  · exact trimEnd_append_of_blank _ h

theorem trim_withoutEnd (piece : Text) : trim (withoutEnd piece) = trim piece := by
  obtain ⟨ending, he, hblank⟩ := withoutEnd_append piece
  calc trim (withoutEnd piece)
      = trim (withoutEnd piece ++ ending) := (trim_append_of_blank _ hblank).symm
    _ = trim piece := by rw [he]

end IrConvert.Text
