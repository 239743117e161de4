import IrConvert.Proofs.Text.Rows
import Mathlib.Data.List.Basic

namespace IrConvert.Text.Excerpt

variable {rows : List Text} {number column : ℕ} {e : Excerpt}

/-- What an excerpt shows of the rows that it is taken from. -/
structure ShownOf (rows : List Text) (number column : ℕ) (e : Excerpt) : Prop where
  number_eq : e.number = number
  column_eq : e.column = column
  row_eq : rows[number]? = some e.row
  before_eq : e.before = if number = 0 then none else rows[number - 1]?

theorem ShownOf.of_of? (h : of? rows number column = some e) : ShownOf rows number column e := by
  cases hrow : rows[number]? with
  | none => cases number <;> simp [of?, hrow] at h
  | some row =>
    cases number <;>
    · simp only [of?, hrow, Option.some.injEq] at h
      subst h
      exact ⟨rfl, rfl, hrow, rfl⟩

theorem ShownOf.not_mem {text : Text} (h : ShownOf text.lines number column e) :
    '\n' ∉ e.row ∧ ∀ row ∈ e.before, '\n' ∉ row := by
  refine ⟨not_mem_of_mem_lines (List.mem_of_getElem? h.row_eq), fun row hrow => ?_⟩
  rw [h.before_eq] at hrow
  split at hrow
  · cases hrow
  · exact not_mem_of_mem_lines (List.mem_of_getElem? hrow)

def shown (e : Excerpt) (message : Text) : List Text :=
  [fence] ++ e.beforeRow ++ [numbered e.number e.row, e.caretRow message, fence]

theorem not_mem_numbered {row : Text} (h : '\n' ∉ row) (n : ℕ) : '\n' ∉ numbered n row :=
  List.not_mem_append (List.not_mem_append (not_mem_ofNat n) (by decide)) h

theorem not_mem_shown {message : Text} (hrow : '\n' ∉ e.row)
    (hbefore : ∀ row ∈ e.before, '\n' ∉ row) (hmessage : '\n' ∉ message) :
    ∀ row ∈ e.shown message, '\n' ∉ row := by
  have hfence : '\n' ∉ fence := by decide
  have hcaret : '\n' ∉ e.caretRow message :=
    List.not_mem_append (List.not_mem_append (not_mem_spaces _) (by decide)) hmessage
  have hbeforeRow : ∀ row ∈ e.beforeRow, '\n' ∉ row := by
    intro row hmem
    rw [beforeRow, Option.mem_toList] at hmem
    obtain ⟨line, hline, rfl⟩ := Option.map_eq_some_iff.1 hmem
    exact not_mem_numbered (hbefore line hline) _
  intro row hmem
  simp only [shown, List.mem_append, List.mem_cons, List.not_mem_nil, or_false] at hmem
  rcases hmem with (rfl | hmem) | rfl | rfl | rfl
  · exact hfence
  · exact hbeforeRow row hmem
  · exact not_mem_numbered hrow _
  · exact hcaret
  · exact hfence

/-- The rows of an excerpt under a title are read back from the text of both. -/
theorem rows_titled {title message : Text} (htitle : '\n' ∉ title)
    (hshown : ∀ row ∈ e.shown message, '\n' ∉ row) :
    Text.rows (title ++ "\n\n".toList ++ e.render message ++ ['\n']) =
      [title, []] ++ e.shown message ++ [[]] := by
  have hjoin : title ++ "\n\n".toList ++ e.render message ++ ['\n'] =
      joinRows ([title, []] ++ e.shown message ++ [[]]) := by
    have hne : e.shown message ≠ [] := by simp [shown]
    rw [joinRows, joinWith_append _ (by simp) (by simp), joinWith_append _ (by simp) hne]
    simp [joinWith, List.intercalate, render, joinRows, shown]
  rw [hjoin]
  apply rows_joinRows (by simp)
  intro row hrow
  simp only [List.mem_append, List.mem_cons, List.not_mem_nil, or_false] at hrow
  rcases hrow with ((rfl | rfl) | hrow) | rfl
  · exact htitle
  · exact List.not_mem_nil
  · exact hshown row hrow
  · exact List.not_mem_nil

/-- The margin of the caret is what stands left of its column in the row above. -/
theorem caretRow_eq (h : e.column ≤ e.row.length) (message : Text) :
    e.caretRow message = spaces (numbered e.number (e.row.take e.column)).length ++
      "^ ".toList ++ message := by
  have hlength : (numbered e.number (e.row.take e.column)).length =
      e.column + 4 + (ofNat e.number).length := by
    rw [numbered, List.length_append, List.length_append, List.length_take_of_le h]
    have hbar : ("  | ".toList).length = 4 := rfl
    omega
  rw [hlength]
  rfl

theorem idxOf_caret (margin : ℕ) (rest : Text) :
    (spaces margin ++ '^' :: rest).idxOf '^' = margin := by
  have hspaces : '^' ∉ spaces margin := by
    intro hmem
    have hc := List.eq_of_mem_replicate hmem
    revert hc
    decide
  rw [List.idxOf_append_of_notMem hspaces, List.idxOf_cons_self, spaces, List.length_replicate]
  rfl

end IrConvert.Text.Excerpt
