import IrConvert.Dialect
import IrConvert.Proofs.Dialect.Written

namespace IrConvert

theorem Text.Excerpt.exists_of? {rows : List Text} {number : ℕ} {row : Text}
    (h : rows[number]? = some row) (column : ℕ) :
    ∃ excerpt, Text.Excerpt.of? rows number column = some excerpt := by
  cases number with
  | zero => exact ⟨⟨none, row, 0, column⟩, by simp only [of?, h]⟩
  | succ n => exact ⟨⟨rows[n]?, row, n + 1, column⟩, by simp only [of?, h]⟩

namespace Dialect

def Occurrence.Declared (o : Occurrence) : Prop := (lookup? o.name).isSome = true

instance : DecidablePred Occurrence.Declared := fun o =>
  inferInstanceAs (Decidable ((lookup? o.name).isSome = true))

theorem firstUndeclared?_eq_none_iff (source : Text) :
    firstUndeclared? source = none ↔ ∀ o ∈ occurrences source, o.Declared := by
  rw [firstUndeclared?, List.find?_eq_none]
  simp [Occurrence.Declared, Option.isSome_iff_ne_none]

theorem firstUndeclared?_eq_some_iff (source : Text) (o : Occurrence) :
    firstUndeclared? source = some o ↔ ¬ o.Declared ∧
      ∃ before after, occurrences source = before ++ o :: after ∧ ∀ p ∈ before, p.Declared := by
  rw [firstUndeclared?, List.find?_eq_some_iff_append]
  simp [Occurrence.Declared, Option.isSome_iff_ne_none]

theorem exists_excerpt {source : Text} {o : Occurrence} (h : o ∈ occurrences source) :
    ∃ excerpt, Text.Excerpt.of? source.lines o.line o.column = some excerpt := by
  obtain ⟨chars, hline, -⟩ := (mem_occurrences_iff source o).1 h
  exact Text.Excerpt.exists_of? hline o.column

theorem verify_of_firstUndeclared? {source : Text} {o : Occurrence}
    (h : firstUndeclared? source = some o) :
    ∃ excerpt, Text.Excerpt.of? source.lines o.line o.column = some excerpt ∧
      verify source = .failed ⟨o.name, excerpt⟩ := by
  have hmem : o ∈ occurrences source := List.mem_of_find?_eq_some h
  obtain ⟨excerpt, hexcerpt⟩ := exists_excerpt hmem
  refine ⟨excerpt, hexcerpt, ?_⟩
  rw [verify, h]
  dsimp only
  rw [hexcerpt]

theorem verify_eq_done_iff (source : Text) :
    verify source = .done () ↔ ∀ o ∈ occurrences source, o.Declared := by
  rw [← firstUndeclared?_eq_none_iff]
  constructor
  · intro h
    by_contra hne
    obtain ⟨o, ho⟩ := Option.ne_none_iff_exists'.1 hne
    obtain ⟨excerpt, -, hfailed⟩ := verify_of_firstUndeclared? ho
    rw [h] at hfailed
    cases hfailed
  · intro h
    rw [verify, h]

theorem exists_failed_of_verify_ne {source : Text} (h : verify source ≠ .done ()) :
    ∃ undeclared, verify source = .failed undeclared := by
  cases ho : firstUndeclared? source with
  | none =>
    rw [firstUndeclared?_eq_none_iff, ← verify_eq_done_iff] at ho
    exact absurd ho h
  | some o =>
    obtain ⟨excerpt, -, hfailed⟩ := verify_of_firstUndeclared? ho
    exact ⟨_, hfailed⟩

end Dialect

end IrConvert
