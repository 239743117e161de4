import IrConvert.Proofs.Text.Lines
import IrConvert.Text.Excerpt

namespace IrConvert.Text

theorem cutAt_eq_splitOn (separator : Char) (text : Text) :
    cutAt separator text = text.splitOn separator := by
  induction text with
  | nil => rfl
  | cons c rest ih =>
    rw [cutAt, ih, List.splitOn_cons_eq_if_modifyHead]
    by_cases hc : c = separator
    · rw [if_pos hc, if_pos (beq_iff_eq.2 hc)]
    · rw [if_neg hc, if_neg (mt beq_iff_eq.1 hc)]
      obtain ⟨part, more, hrest⟩ := List.exists_cons_of_ne_nil (List.splitOn_ne_nil separator rest)
      rw [hrest]
      rfl

theorem rows_joinRows {parts : List Text} (hne : parts ≠ [])
    (h : ∀ part ∈ parts, '\n' ∉ part) : rows (joinRows parts) = parts := by
  rw [rows, cutAt_eq_splitOn]
  exact List.splitOn_intercalate '\n' h hne

theorem joinWith_append (separator : Text) {parts others : List Text} (h : parts ≠ [])
    (h' : others ≠ []) : joinWith separator (parts ++ others) =
      joinWith separator parts ++ (separator ++ joinWith separator others) := by
  simp only [joinWith]
  induction parts with
  | nil => exact absurd rfl h
  | cons first rest ih =>
    obtain ⟨second, more, rfl⟩ := List.exists_cons_of_ne_nil h'
    cases rest with
    | nil =>
      rw [List.singleton_append, List.intercalate_cons_cons, List.intercalate_singleton,
        List.append_assoc]
    | cons third rest =>
      rw [List.cons_append, List.cons_append, List.intercalate_cons_cons,
        List.intercalate_cons_cons, ← List.cons_append, ih (List.cons_ne_nil third rest)]
      simp only [List.append_assoc]

theorem isDigit_of_mem_ofNat {n : ℕ} {c : Char} (h : c ∈ ofNat n) : c.isDigit = true :=
  Nat.isDigit_of_mem_toDigits (by omega) (by omega) h

theorem not_mem_ofNat (n : ℕ) : '\n' ∉ ofNat n := by
  intro h
  have hdigit := isDigit_of_mem_ofNat h
  revert hdigit
  decide

/-- A space ends a number. -/
theorem eq_of_ofNat_append {n m : ℕ} {rest rest' : Text}
    (h : ofNat n ++ ' ' :: rest = ofNat m ++ ' ' :: rest') : rest = rest' := by
  have hdrop := congrArg (List.dropWhile Char.isDigit) h
  rw [List.dropWhile_append_of_pos fun c => isDigit_of_mem_ofNat,
    List.dropWhile_append_of_pos fun c => isDigit_of_mem_ofNat] at hdrop
  exact (List.cons.inj hdrop).2

theorem not_mem_spaces (n : ℕ) : '\n' ∉ spaces n := by
  intro h
  have hc := List.eq_of_mem_replicate h
  revert hc
  decide

/-- A piece that has a newline in no other place than at its end has none without its end. -/
theorem not_mem_withoutEnd {piece : Text} (h : '\n' ∉ piece.dropLast) :
    '\n' ∉ withoutEnd piece := by
  induction piece using withoutEnd.induct with
  | case1 => exact h
  | case2 => exact List.not_mem_nil
  | case3 => exact List.not_mem_nil
  | case4 c rest hnewline hreturn ih =>
    have hcons : withoutEnd (c :: rest) = c :: withoutEnd rest := by
      rw [withoutEnd] <;> assumption
    rw [hcons, List.mem_cons, not_or]
    cases rest with
    | nil => exact ⟨fun hc => hnewline hc.symm rfl, List.not_mem_nil⟩
    | cons d more =>
      rw [List.dropLast_cons_cons, List.mem_cons, not_or] at h
      exact ⟨h.1, ih h.2⟩

theorem not_mem_of_mem_lines {text line : Text} (h : line ∈ text.lines) : '\n' ∉ line := by
  obtain ⟨piece, hpiece, rfl⟩ := List.mem_map.1 h
  apply not_mem_withoutEnd
  clear h
  induction text using lineInduction with
  | nil => cases hpiece
  | last line hne hopen =>
    rw [pieces_of_not_mem hne hopen, List.mem_singleton] at hpiece
    rw [hpiece]
    exact fun hmem => hopen (List.dropLast_subset line hmem)
  | line full rest hfull ih =>
    rw [pieces_fullLine_append hfull, List.mem_cons] at hpiece
    rcases hpiece with rfl | hpiece
    · obtain ⟨body, hbody, rfl⟩ := hfull
      rwa [List.dropLast_concat]
    · exact ih hpiece

end IrConvert.Text
