import IrConvert.Proofs.Dialect.Undeclared
import IrConvert.Proofs.Text.Excerpt

namespace IrConvert.Dialect

/-- An undeclared operation that precedes every other one. -/
structure FirstUndeclared (source : Text) (o : Occurrence) : Prop where
  mem : o ∈ occurrences source
  undeclared : ¬ o.Declared
  first : ∀ p ∈ occurrences source, ¬ p.Declared → p = o ∨ o.Precedes p

theorem FirstUndeclared.of_firstUndeclared? {source : Text} {o : Occurrence}
    (h : firstUndeclared? source = some o) : FirstUndeclared source o := by
  obtain ⟨hundeclared, before, after, hsplit, hbefore⟩ := (firstUndeclared?_eq_some_iff ..).1 h
  have hsorted := sorted_occurrences source
  rw [hsplit, List.pairwise_append, List.pairwise_cons] at hsorted
  refine ⟨hsplit ▸ List.mem_append_right before List.mem_cons_self, hundeclared, ?_⟩
  intro p hp hnot
  rw [hsplit, List.mem_append, List.mem_cons] at hp
  rcases hp with hp | rfl | hp
  · exact absurd (hbefore p hp) hnot
  · exact .inl rfl
  · exact .inr (hsorted.2.1.1 p hp)

/-- A line is cut where a name is written in it and where the name ends. -/
theorem WrittenAt.cut {chars name : Text} {column : ℕ} (h : WrittenAt chars column name) :
    ∃ front rest : Text, chars = front ++ (name ++ rest) ∧ front.length = column ∧
      ∀ c ∈ rest.head?, nameChar c = false := by
  have hname := (longestName_iff chars column name).1 h.run
  have hlt : column < chars.length := (List.getElem?_eq_some_iff.1 h.head).1
  refine ⟨chars.take column, (chars.drop column).dropWhile nameChar, ?_, ?_, ?_⟩
  · rw [hname, List.takeWhile_append_dropWhile, List.take_append_drop]
  · exact List.length_take_of_le hlt.le
  · intro c hc
    have hnot := List.head?_dropWhile_not nameChar (chars.drop column)
    rw [Option.mem_def.1 hc] at hnot
    exact hnot

theorem not_mem_of_nameChars {name : Text} (h : ∀ c ∈ name, nameChar c = true) :
    '\n' ∉ name := by
  intro hmem
  have hname := h _ hmem
  revert hname
  decide

def remark (name : Text) : Text :=
  "operation '".toList ++ name ++ "' is not registered in the graphblas dialect".toList

theorem remark_eq (name : Text) : remark name = "operation '".toList ++ name ++
    "' is not registered in the ".toList ++ Dialect.name ++ " dialect".toList := by
  have hend : "' is not registered in the graphblas dialect".toList =
      "' is not registered in the ".toList ++ (Dialect.name ++ " dialect".toList) := by
    decide +kernel
  calc remark name
      = "operation '".toList ++ name ++
          ("' is not registered in the ".toList ++ (Dialect.name ++ " dialect".toList)) :=
        congrArg ("operation '".toList ++ name ++ ·) hend
    _ = _ := by simp only [List.append_assoc]

theorem Undeclared.message_eq (undeclared : Undeclared) : undeclared.message =
    "Unregistered operation:".toList ++ "\n\n".toList ++
      undeclared.excerpt.render (remark undeclared.name) ++ ['\n'] := by
  have htitle : "Unregistered operation:\n\n".toList =
      "Unregistered operation:".toList ++ "\n\n".toList := by decide +kernel
  rw [remark_eq]
  exact congrArg (· ++ undeclared.excerpt.render _ ++ ['\n']) htitle

theorem not_mem_remark {name : Text} (h : ∀ c ∈ name, nameChar c = true) : '\n' ∉ remark name :=
  List.not_mem_append (List.not_mem_append (by decide) (not_mem_of_nameChars h)) (by decide)

theorem rows_message {source name : Text} {number column : ℕ} {excerpt : Text.Excerpt}
    (hname : ∀ c ∈ name, nameChar c = true) (h : excerpt.ShownOf source.lines number column) :
    (Undeclared.message ⟨name, excerpt⟩).rows =
      ["Unregistered operation:".toList, []] ++ excerpt.shown (remark name) ++ [[]] := by
  obtain ⟨hrow, hbefore⟩ := h.not_mem
  have htitle : '\n' ∉ "Unregistered operation:".toList := by decide
  rw [Undeclared.message_eq]
  exact Text.Excerpt.rows_titled htitle
    (Text.Excerpt.not_mem_shown hrow hbefore (not_mem_remark hname))

theorem beforeRow_of_shownOf {source : Text} {number column : ℕ} {excerpt : Text.Excerpt}
    (h : excerpt.ShownOf source.lines number column) :
    (number = 0 → excerpt.beforeRow = []) ∧
    ∀ n, number = n + 1 → ∃ previous, source.lines[n]? = some previous ∧
      excerpt.beforeRow = [Text.ofNat n ++ "  | ".toList ++ previous] := by
  have hbefore := h.before_eq
  constructor
  · intro hzero
    rw [if_pos hzero] at hbefore
    rw [Text.Excerpt.beforeRow, hbefore]
    rfl
  · intro n hn
    have hlt : n + 1 < source.lines.length := hn ▸ (List.getElem?_eq_some_iff.1 h.row_eq).1
    have hprevious : source.lines[n]? = some source.lines[n] :=
      List.getElem?_eq_getElem (by omega)
    refine ⟨source.lines[n], hprevious, ?_⟩
    rw [if_neg (by omega), hn, Nat.add_sub_cancel, hprevious] at hbefore
    rw [Text.Excerpt.beforeRow, hbefore, h.number_eq, hn]
    rfl

/-- No operation is declared yet. -/
theorem not_declared (o : Occurrence) : ¬ o.Declared := by
  rw [Occurrence.Declared, lookup?, declarations]
  exact Bool.false_ne_true

theorem exists_failed_iff (source : Text) : (∃ undeclared, verify source = .failed undeclared) ↔
    ∃ o ∈ occurrences source, ¬ o.Declared := by
  constructor
  · intro h
    obtain ⟨undeclared, hfailed⟩ := h
    by_contra hnone
    have hall : ∀ o ∈ occurrences source, o.Declared := by simpa using hnone
    rw [(verify_eq_done_iff source).2 hall] at hfailed
    cases hfailed
  · intro h
    obtain ⟨o, ho, hundeclared⟩ := h
    apply exists_failed_of_verify_ne
    intro hdone
    exact hundeclared ((verify_eq_done_iff source).1 hdone o ho)

theorem verify_ne_crashed (source : Text) : verify source ≠ .crashed := by
  intro hcrash
  have hne : verify source ≠ .done () := by
    rw [hcrash]
    nofun
  obtain ⟨undeclared, hfailed⟩ := exists_failed_of_verify_ne hne
  rw [hcrash] at hfailed
  cases hfailed

/-- The refusal is about the first undeclared operation. -/
theorem exists_first_of_failed {source : Text} {undeclared : Undeclared}
    (h : verify source = .failed undeclared) :
    ∃ o, FirstUndeclared source o ∧ undeclared.name = o.name ∧
      undeclared.excerpt.ShownOf source.lines o.line o.column := by
  cases hfound : firstUndeclared? source with
  | none =>
    rw [verify, hfound] at h
    cases h
  | some o =>
    obtain ⟨excerpt, hexcerpt, hfailed⟩ := verify_of_firstUndeclared? hfound
    obtain rfl := Outcome.failed.inj (h.symm.trans hfailed)
    exact ⟨o, .of_firstUndeclared? hfound, rfl, .of_of? hexcerpt⟩

def caretRow (left name : Text) : Text :=
  Text.spaces left.length ++ "^ operation '".toList ++ name ++
    "' is not registered in the graphblas dialect".toList

theorem caretRow_eq_remark (left name : Text) :
    caretRow left name = Text.spaces left.length ++ "^ ".toList ++ remark name := by
  have hsign : "^ operation '".toList = "^ ".toList ++ "operation '".toList := by decide +kernel
  calc caretRow left name
      = Text.spaces left.length ++ ("^ ".toList ++ "operation '".toList) ++ name ++
          "' is not registered in the graphblas dialect".toList :=
        congrArg (Text.spaces left.length ++ · ++ name ++ _) hsign
    _ = Text.spaces left.length ++ "^ ".toList ++ ("operation '".toList ++ name ++
          "' is not registered in the graphblas dialect".toList) := by
        simp only [List.append_assoc]

theorem idxOf_caretRow (left name : Text) : (caretRow left name).idxOf '^' = left.length := by
  rw [caretRow_eq_remark, List.append_assoc]
  exact Text.Excerpt.idxOf_caret left.length _

/-- In its row and in the caret row an operation has the same text before it. -/
theorem rows_of_shownOf {source front rest name : Text} {number : ℕ} {excerpt : Text.Excerpt}
    (hname : ∀ c ∈ name, nameChar c = true)
    (h : excerpt.ShownOf source.lines number front.length)
    (hline : source.lines[number]? = some (front ++ rest)) :
    let left := Text.ofNat number ++ "  | ".toList ++ front
    (Undeclared.message ⟨name, excerpt⟩).rows =
      ["Unregistered operation:".toList, [], "```".toList] ++ excerpt.beforeRow ++
        [left ++ rest, caretRow left name, "```".toList, []] := by
  intro left
  have hrow : excerpt.row = front ++ rest := Option.some.inj (h.row_eq.symm.trans hline)
  have hleft : Text.Excerpt.numbered excerpt.number front = left := by
    rw [h.number_eq]
    rfl
  have hnumbered : Text.Excerpt.numbered excerpt.number excerpt.row = left ++ rest := by
    rw [← hleft, hrow, Text.Excerpt.numbered, Text.Excerpt.numbered, List.append_assoc _ front]
  have hcaret : excerpt.caretRow (remark name) = caretRow left name := by
    have hle : excerpt.column ≤ excerpt.row.length := by
      rw [hrow, List.length_append, h.column_eq]
      exact Nat.le_add_right ..
    have htake : excerpt.row.take excerpt.column = front := by
      rw [hrow, h.column_eq, List.take_left]
    rw [Text.Excerpt.caretRow_eq hle, htake, hleft, caretRow_eq_remark]
  have hfence : Text.Excerpt.fence = "```".toList := rfl
  rw [rows_message hname h, Text.Excerpt.shown, hnumbered, hcaret, hfence]
  simp only [List.append_assoc, List.cons_append, List.nil_append]

/-- A source is refused exactly if it has an undeclared operation. The message is about the first
one, and shows its line with the line before it and the caret right below its name. -/
theorem verify_shows_first (source : Text) :
    ((∃ undeclared, verify source = .failed undeclared) ↔
      ∃ o ∈ occurrences source, ¬ o.Declared) ∧
    ((∃ undeclared, verify source = .failed undeclared) ↔ occurrences source ≠ []) ∧
    verify source ≠ .crashed ∧
    ∀ undeclared, verify source = .failed undeclared →
      ∃ (o : Occurrence) (before : List Text) (front rest : Text), FirstUndeclared source o ∧
        source.lines[o.line]? = some (front ++ (o.name ++ rest)) ∧ front.length = o.column ∧
        (∀ c ∈ rest.head?, nameChar c = false) ∧
        (o.line = 0 → before = []) ∧
        (∀ n, o.line = n + 1 → ∃ previous, source.lines[n]? = some previous ∧
          before = [Text.ofNat n ++ "  | ".toList ++ previous]) ∧
        let left := Text.ofNat o.line ++ "  | ".toList ++ front
        let caret := Text.spaces left.length ++ "^ operation '".toList ++ o.name ++
          "' is not registered in the graphblas dialect".toList
        undeclared.message.rows = ["Unregistered operation:".toList, [], "```".toList] ++ before ++
          [left ++ (o.name ++ rest), caret, "```".toList, []] ∧
        caret.idxOf '^' = left.length := by
  refine ⟨exists_failed_iff source, ?_, verify_ne_crashed source, fun undeclared hfailed => ?_⟩
  · rw [exists_failed_iff, Ne, List.eq_nil_iff_forall_not_mem]
    simp [not_declared]
  · obtain ⟨name, excerpt⟩ := undeclared
    obtain ⟨o, hfirst, rfl, hshown⟩ := exists_first_of_failed hfailed
    obtain ⟨chars, hline, hwritten⟩ := (mem_occurrences_iff source o).1 hfirst.mem
    obtain ⟨front, rest, rfl, hcolumn, hrest⟩ := hwritten.cut
    obtain ⟨hzero, hsucc⟩ := beforeRow_of_shownOf hshown
    rw [← hcolumn] at hshown
    exact ⟨o, excerpt.beforeRow, front, rest, hfirst, hline, hcolumn, hrest, hzero, hsucc,
      rows_of_shownOf hwritten.run.characters hshown hline, idxOf_caretRow _ o.name⟩

def accentedQuote : Text := "a\r\n\"\u00e9\" graphblas.x-"

theorem verify_shows_first_after_accented_quote :
    ∃ undeclared, verify accentedQuote = .failed undeclared ∧
      undeclared.message.rows = ["Unregistered operation:".toList, [], "```".toList,
        "0  | a".toList, "1  | \"\u00e9\" graphblas.x-".toList,
        "         ^ operation 'graphblas.x' is not registered in the graphblas dialect".toList,
        "```".toList, []] := by
  have hall : occurrences accentedQuote = [⟨1, 4, "graphblas.x".toList⟩] := by decide +kernel
  obtain ⟨hfailed, -, -, hrows⟩ := verify_shows_first accentedQuote
  obtain ⟨undeclared, hrefused⟩ := hfailed.2 ⟨_, hall ▸ List.mem_cons_self, not_declared _⟩
  obtain ⟨o, before, front, rest, hfirst, hline, hcolumn, -, -, hbefore, hmessage, -⟩ :=
    hrows undeclared hrefused
  obtain rfl : o = ⟨1, 4, "graphblas.x".toList⟩ := List.mem_singleton.1 (hall ▸ hfirst.mem)
  obtain ⟨previous, hprevious, rfl⟩ := hbefore 0 rfl
  have hfirstLine : accentedQuote.lines[0]? = some ['a'] := by decide +kernel
  have hsecondLine : accentedQuote.lines[1]? =
      some ("\"\u00e9\" ".toList ++ ("graphblas.x".toList ++ ['-'])) := by decide +kernel
  obtain ⟨rfl, hrest⟩ := List.append_inj (Option.some.inj (hline.symm.trans hsecondLine)) hcolumn
  obtain rfl := List.append_cancel_left hrest
  obtain rfl := Option.some.inj (hprevious.symm.trans hfirstLine)
  exact ⟨undeclared, hrefused, hmessage.trans (by decide +kernel)⟩

end IrConvert.Dialect
