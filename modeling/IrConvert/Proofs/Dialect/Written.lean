import IrConvert.Dialect
import Mathlib.Algebra.Group.Nat.Even
import Mathlib.Data.List.Basic
import Mathlib.Data.List.TakeWhile

namespace IrConvert.Dialect

/-- A quote that no backslash directly precedes. -/
def activeQuote (chars : Text) (position : ℕ) : Bool :=
  chars[position]? == some '"' && (position == 0 || chars[position - 1]? != some '\\')

def quotesBefore (chars : Text) (column : ℕ) : ℕ := (List.range column).countP (activeQuote chars)

/-- Two slashes outside of strings. -/
def CommentStart (chars : Text) (position : ℕ) : Prop :=
  chars[position]? = some '/' ∧ chars[position + 1]? = some '/' ∧ Even (quotesBefore chars position)

/-- The longest run of name characters that starts in a column. -/
structure LongestName (chars : Text) (column : ℕ) (name : Text) : Prop where
  starts : name <+: chars.drop column
  characters : ∀ c ∈ name, nameChar c = true
  longest : ∀ other : Text, other <+: chars.drop column → (∀ c ∈ other, nameChar c = true) →
    other.length ≤ name.length

def OperationName (name : Text) : Prop := ∃ mnemonic, mnemonic ≠ [] ∧ name = lead ++ mnemonic

/-- Outside of strings a name stands at the start of the line or after a character that does not
glue. In a string it stands right after the quote, and the other quote and a parenthesis come
right after it. -/
def FreePlace (chars : Text) (column : ℕ) (name : Text) : Prop :=
  (Even (quotesBefore chars column) ∧
    (column = 0 ∨ ∀ c, chars[column - 1]? = some c → gluedChar c = false)) ∨
  (¬ Even (quotesBefore chars column) ∧ chars[column - 1]? = some '"' ∧
    ['"', '('] <+: chars.drop (column + name.length))

structure WrittenAt (chars : Text) (column : ℕ) (name : Text) : Prop where
  uncommented : ∀ position < column, ¬ CommentStart chars position
  run : LongestName chars column name
  operation : OperationName name
  place : FreePlace chars column name

theorem lead_eq : lead = 'g' :: "raphblas.".toList := by decide

theorem after?_eq_some_iff (front text rest : Text) :
    Text.after? front text = some rest ↔ front ++ rest = text :=
  List.isPrefixOf?_eq_some_iff_append_eq

theorem after?_isSome_iff (front text : Text) :
    (Text.after? front text).isSome = true ↔ front <+: text := by
  simp only [Option.isSome_iff_exists, after?_eq_some_iff]
  rfl

theorem isOperation_iff (name : Text) : isOperation name = true ↔ OperationName name := by
  constructor
  · intro h
    unfold isOperation at h
    split at h
    · next c rest he =>
      exact ⟨c :: rest, List.cons_ne_nil c rest, ((after?_eq_some_iff _ _ _).1 he).symm⟩
    · cases h
  · intro h
    obtain ⟨mnemonic, hne, rfl⟩ := h
    obtain ⟨c, rest, rfl⟩ := List.exists_cons_of_ne_nil hne
    have he : Text.after? lead (lead ++ c :: rest) = some (c :: rest) :=
      (after?_eq_some_iff _ _ _).2 rfl
    simp only [isOperation, he]

theorem OperationName.head {name : Text} (h : OperationName name) : ∃ rest, name = 'g' :: rest := by
  obtain ⟨mnemonic, -, rfl⟩ := h
  rw [lead_eq]
  exact ⟨_, rfl⟩

theorem takeWhile_nameChar_eq_nil {rest : Text} (h : ∀ c ∈ rest.head?, nameChar c = false) :
    rest.takeWhile nameChar = [] := by
  cases rest with
  | nil => rfl
  | cons c rest => rw [List.takeWhile_cons, h c rfl, if_neg Bool.false_ne_true]

theorem longestName_iff (chars : Text) (column : ℕ) (name : Text) :
    LongestName chars column name ↔ name = (chars.drop column).takeWhile nameChar := by
  constructor
  · intro h
    have hpre : (chars.drop column).takeWhile nameChar <+: chars.drop column :=
      List.takeWhile_prefix _
    have hle := h.longest _ hpre fun c hc => List.mem_takeWhile_imp hc
    obtain ⟨rest, hrest⟩ := h.starts
    have hname : name <+: (chars.drop column).takeWhile nameChar := by
      rw [← hrest, List.takeWhile_append_of_pos h.characters]
      exact List.prefix_append _ _
    exact hname.eq_of_length_le hle
  · intro h
    subst h
    refine ⟨List.takeWhile_prefix _, fun c hc => List.mem_takeWhile_imp hc, ?_⟩
    intro other hpre hall
    -- what comes after another run of name characters can only make the longest one longer
    obtain ⟨rest, hrest⟩ := hpre
    rw [← hrest, List.takeWhile_append_of_pos hall, List.length_append]
    omega

theorem quotesBefore_zero (chars : Text) : quotesBefore chars 0 = 0 := rfl

theorem even_quotesBefore_succ (chars : Text) (column : ℕ) :
    Even (quotesBefore chars (column + 1)) ↔
      (Even (quotesBefore chars column) ↔ activeQuote chars column = false) := by
  rw [quotesBefore, List.range_succ, List.countP_append]
  cases h : activeQuote chars column
  · simp [h, quotesBefore]
  · simp [h, quotesBefore, Nat.even_add_one]

def charBefore? (chars : Text) : ℕ → Option Char
  | 0 => none
  | column + 1 => chars[column]?

/-- A scan of a line has come to a column, past no comment, with all that it carries along. -/
structure Reached (chars : Text) (column : ℕ) (inString : Bool) (before : Option Char)
    (rest : Text) : Prop where
  rest_eq : rest = chars.drop column
  before_eq : before = charBefore? chars column
  inString_iff : inString = true ↔ ¬ Even (quotesBefore chars column)
  uncommented : ∀ position < column, ¬ CommentStart chars position

theorem Reached.start (chars : Text) : Reached chars 0 false none chars where
  rest_eq := rfl
  before_eq := rfl
  inString_iff := by simp [quotesBefore_zero]
  uncommented _ h := absurd h (Nat.not_lt_zero _)

section Reached

variable {chars rest : Text} {column : ℕ} {inString : Bool} {before : Option Char} {c : Char}

theorem Reached.char (h : Reached chars column inString before (c :: rest)) :
    chars[column]? = some c := by
  rw [← List.head?_drop, ← h.rest_eq, List.head?_cons]

theorem Reached.tail (h : Reached chars column inString before (c :: rest)) :
    rest = chars.drop (column + 1) := by
  rw [← List.tail_drop, ← h.rest_eq, List.tail_cons]

theorem Reached.commentStart_iff (h : Reached chars column inString before (c :: rest)) :
    (!inString && c == '/' && rest.head? == some '/') = true ↔ CommentStart chars column := by
  have heven : inString = false ↔ Even (quotesBefore chars column) := by
    rw [← Bool.not_eq_true, h.inString_iff, not_not]
  rw [CommentStart, h.char, ← List.head?_drop, ← h.tail, ← heven]
  simp only [Bool.and_eq_true, Bool.not_eq_eq_eq_not, Bool.not_true, beq_iff_eq,
    Option.some.injEq]
  exact ⟨fun ⟨⟨hs, hc⟩, hr⟩ => ⟨hc, hr, hs⟩, fun ⟨hc, hr, hs⟩ => ⟨⟨hs, hc⟩, hr⟩⟩

theorem Reached.turnsString_eq (h : Reached chars column inString before (c :: rest)) :
    turnsString before c = activeQuote chars column := by
  rw [turnsString, activeQuote, h.char, h.before_eq]
  cases column <;> simp [charBefore?]

theorem Reached.step (h : Reached chars column inString before (c :: rest))
    (hc : ¬ CommentStart chars column) :
    Reached chars (column + 1) (inString != turnsString before c) (some c) rest where
  rest_eq := h.tail
  before_eq := h.char.symm
  inString_iff := by
    rw [even_quotesBefore_succ, h.turnsString_eq]
    -- an active quote turns the flag and the parity, any other character neither
    have hs := h.inString_iff
    cases inString <;> cases activeQuote chars column <;> simp_all
  uncommented position hp := by
    rcases Nat.lt_succ_iff_lt_or_eq.1 hp with hlt | rfl
    · exact h.uncommented position hlt
    · exact hc

theorem Reached.drop_name (h : Reached chars column inString before rest) {name : Text}
    (hname : name = rest.takeWhile nameChar) :
    rest.dropWhile nameChar = chars.drop (column + name.length) := by
  have hsplit : name ++ rest.dropWhile nameChar = rest := by
    rw [hname]
    exact List.takeWhile_append_dropWhile
  rw [← List.drop_drop, ← h.rest_eq]
  conv_rhs => rw [← hsplit]
  rw [List.drop_left]

theorem Reached.namePlace_iff (h : Reached chars column inString before rest) {name : Text}
    (hname : name = rest.takeWhile nameChar) :
    namePlace inString before (rest.dropWhile nameChar) = true ↔ FreePlace chars column name := by
  have hs := h.inString_iff
  rw [namePlace, FreePlace, h.drop_name hname, h.before_eq]
  cases inString with
  | true =>
    have hodd : ¬ Even (quotesBefore chars column) := hs.1 rfl
    have hpos : column ≠ 0 := by
      intro hzero
      rw [hzero] at hodd
      exact hodd Even.zero
    obtain ⟨previous, rfl⟩ := Nat.exists_eq_succ_of_ne_zero hpos
    simp [hodd, charBefore?, after?_isSome_iff]
  | false =>
    have heven : Even (quotesBefore chars column) := by simpa using hs
    cases column <;> simp [heven, charBefore?, Option.any_eq_false]

theorem Reached.operationAt?_eq_some_iff (h : Reached chars column inString before rest)
    (name : Text) :
    operationAt? inString before rest = some name ↔ LongestName chars column name ∧
      OperationName name ∧ FreePlace chars column name := by
  rw [longestName_iff, ← h.rest_eq, operationAt?]
  constructor
  · intro he
    split at he
    · next hall =>
      obtain rfl := Option.some.inj he
      simp only [Bool.and_eq_true] at hall
      exact ⟨rfl, (isOperation_iff _).1 hall.1.2, (h.namePlace_iff rfl).1 hall.2⟩
    · cases he
  · intro hall
    obtain ⟨hname, hop, hplace⟩ := hall
    have hlead : lead <+: rest := by
      obtain ⟨mnemonic, -, hm⟩ := hop
      exact (List.prefix_append lead mnemonic).trans (hm ▸ hname ▸ List.takeWhile_prefix _)
    rw [← hname, (isOperation_iff name).2 hop, (after?_isSome_iff _ _).2 hlead,
      (h.namePlace_iff hname).2 hplace]
    rfl

end Reached

theorem WrittenAt.head {chars : Text} {column : ℕ} {name : Text}
    (h : WrittenAt chars column name) : chars[column]? = some 'g' := by
  obtain ⟨tail, rfl⟩ := h.operation.head
  obtain ⟨rest, hrest⟩ := h.run.starts
  rw [← List.head?_drop, ← hrest]
  rfl

theorem mem_scan_cons {number column : ℕ} {inString : Bool} {before : Option Char} {c : Char}
    {rest : Text} (hc : (!inString && c == '/' && rest.head? == some '/') ≠ true) (o : Occurrence) :
    o ∈ scan number inString before column (c :: rest) ↔
      (o.line = number ∧ o.column = column ∧
        operationAt? inString before (c :: rest) = some o.name) ∨
      o ∈ scan number (inString != turnsString before c) (some c) (column + 1) rest := by
  rw [scan, if_neg hc]
  obtain ⟨lineNumber, position, name⟩ := o
  cases operationAt? inString before (c :: rest) with
  | none => simp
  | some found => simp [eq_comm (a := found)]

/-- From any column on, the scan finds what is written from there on. -/
theorem Reached.mem_scan_iff {chars : Text} {number : ℕ} (o : Occurrence) {rest : Text} :
    ∀ {column : ℕ} {inString : Bool} {before : Option Char},
      Reached chars column inString before rest →
      (o ∈ scan number inString before column rest ↔
        o.line = number ∧ column ≤ o.column ∧ WrittenAt chars o.column o.name) := by
  induction rest with
  | nil =>
    intro column inString before h
    have hlen : chars.length ≤ column := List.drop_eq_nil_iff.1 h.rest_eq.symm
    constructor
    · intro ho
      cases ho
    · intro ho
      obtain ⟨-, hle, hw⟩ := ho
      have hlt : o.column < chars.length := (List.getElem?_eq_some_iff.1 hw.head).1
      omega
  | cons c rest ih =>
    intro column inString before h
    by_cases hcomment : CommentStart chars column
    · rw [scan, if_pos (h.commentStart_iff.2 hcomment)]
      constructor
      · intro ho
        cases ho
      · intro ho
        obtain ⟨-, hle, hw⟩ := ho
        -- a comment hides what is behind its start, and no name starts with its slash
        rcases hle.lt_or_eq with hlt | heq
        · exact absurd hcomment (hw.uncommented column hlt)
        · have hg : chars[o.column]? = some 'g' := hw.head
          rw [← heq, hcomment.1] at hg
          cases hg
    · rw [mem_scan_cons (fun hc => hcomment (h.commentStart_iff.1 hc)), ih (h.step hcomment),
        h.operationAt?_eq_some_iff]
      constructor
      · intro ho
        obtain ⟨hline, rfl, hrun, hop, hplace⟩ | ⟨hline, hle, hw⟩ := ho
        · exact ⟨hline, le_rfl, h.uncommented, hrun, hop, hplace⟩
        · exact ⟨hline, by omega, hw⟩
      · intro ho
        obtain ⟨hline, hle, hw⟩ := ho
        rcases hle.lt_or_eq with hlt | rfl
        · exact Or.inr ⟨hline, hlt, hw⟩
        · exact Or.inl ⟨hline, rfl, hw.run, hw.operation, hw.place⟩

theorem mem_occurrencesInLine_iff (number : ℕ) (chars : Text) (o : Occurrence) :
    o ∈ occurrencesInLine number chars ↔ o.line = number ∧ WrittenAt chars o.column o.name := by
  rw [occurrencesInLine, (Reached.start chars).mem_scan_iff]
  simp

theorem mem_occurrences_iff (source : Text) (o : Occurrence) :
    o ∈ occurrences source ↔
      ∃ chars, source.lines[o.line]? = some chars ∧ WrittenAt chars o.column o.name := by
  rw [occurrences, List.mem_flatMap]
  constructor
  · intro h
    obtain ⟨⟨chars, number⟩, hline, ho⟩ := h
    obtain ⟨rfl, hw⟩ := (mem_occurrencesInLine_iff number chars o).1 ho
    exact ⟨chars, List.mem_zipIdx_iff_getElem?.1 hline, hw⟩
  · intro h
    obtain ⟨chars, hline, hw⟩ := h
    exact ⟨(chars, o.line), List.mem_zipIdx_iff_getElem?.2 hline,
      (mem_occurrencesInLine_iff o.line chars o).2 ⟨rfl, hw⟩⟩

def Occurrence.Precedes (a b : Occurrence) : Prop :=
  a.line < b.line ∨ a.line = b.line ∧ a.column < b.column

theorem sorted_scan (number : ℕ) {chars rest : Text} :
    ∀ {column : ℕ} {inString : Bool} {before : Option Char},
      Reached chars column inString before rest →
      (scan number inString before column rest).Pairwise Occurrence.Precedes := by
  induction rest with
  | nil =>
    intro column inString before _
    exact List.Pairwise.nil
  | cons c rest ih =>
    intro column inString before h
    by_cases hcomment : CommentStart chars column
    · rw [scan, if_pos (h.commentStart_iff.2 hcomment)]
      exact List.Pairwise.nil
    · have hmore := ih (h.step hcomment)
      rw [scan, if_neg (fun hc => hcomment (h.commentStart_iff.1 hc))]
      dsimp only
      split
      · next name _ =>
        refine List.pairwise_cons.2 ⟨fun o ho => ?_, hmore⟩
        obtain ⟨hline, hlt, -⟩ := ((h.step hcomment).mem_scan_iff o).1 ho
        exact Or.inr ⟨hline.symm, hlt⟩
      · exact hmore

theorem sorted_occurrences (source : Text) :
    (occurrences source).Pairwise Occurrence.Precedes := by
  rw [occurrences, List.pairwise_flatMap]
  refine ⟨fun p _ => sorted_scan p.2 (Reached.start p.1), ?_⟩
  -- between two lines the numbers of the lines decide
  have hnumbers : (source.lines.zipIdx).Pairwise fun p q => p.2 < q.2 := by
    rw [← List.pairwise_map, List.zipIdx_map_snd]
    exact List.pairwise_lt_range'
  refine hnumbers.imp fun {p q} hlt a ha b hb => Or.inl ?_
  have hp := ((mem_occurrencesInLine_iff p.2 p.1 a).1 ha).1
  have hq := ((mem_occurrencesInLine_iff q.2 q.1 b).1 hb).1
  rwa [hp, hq]

/-- No name starts within another one or right at its end, because there the character before it
is a name character. -/
theorem WrittenAt.length_lt {chars : Text} {column column' : ℕ} {name name' : Text}
    (h : WrittenAt chars column name) (h' : WrittenAt chars column' name')
    (hlt : column < column') : column + name.length < column' := by
  by_contra hge
  obtain ⟨k, rfl⟩ : ∃ k, column' = column + k + 1 := ⟨column' - column - 1, by omega⟩
  have hk : k < name.length := by omega
  -- the character before the second name belongs to the first
  have hchar : chars[column + k]? = some name[k] := by
    obtain ⟨rest, hrest⟩ := h.run.starts
    rw [← List.getElem?_drop, ← hrest, List.getElem?_append_left hk, List.getElem?_eq_getElem hk]
  have hname : nameChar name[k] = true := h.run.characters _ (List.getElem_mem hk)
  rcases h'.place with ⟨-, hz | hfree⟩ | ⟨-, hquote, -⟩
  · omega
  · have hglued := hfree _ hchar
    rw [gluedChar, hname] at hglued
    cases hglued
  · rw [Nat.add_sub_cancel, hchar] at hquote
    rw [Option.some.inj hquote] at hname
    revert hname
    decide

/-- The scan finds what is written in the lines by the declarative reading, each operation once,
in the order of the text, and no two in overlapping places. -/
theorem occurrences_exact (source : Text) :
    (∀ (number column : ℕ) (name : Text), ⟨number, column, name⟩ ∈ occurrences source ↔
      ∃ chars, source.lines[number]? = some chars ∧ WrittenAt chars column name) ∧
    (occurrences source).Pairwise Occurrence.Precedes ∧ (occurrences source).Nodup ∧
    (occurrences source).Pairwise fun a b =>
      a.line = b.line → a.column + a.name.length < b.column := by
  have hmem := mem_occurrences_iff source
  have hsorted := sorted_occurrences source
  refine ⟨fun number column name => hmem ⟨number, column, name⟩, hsorted, ?_, ?_⟩
  · refine hsorted.imp fun {a b} hab heq => ?_
    subst heq
    rcases hab with hlt | ⟨-, hlt⟩
    · exact lt_irrefl _ hlt
    · exact lt_irrefl _ hlt
  · refine hsorted.imp_of_mem fun {a b} ha hb hab hline => ?_
    obtain ⟨text, htext, hwa⟩ := (hmem a).1 ha
    obtain ⟨text', htext', hwb⟩ := (hmem b).1 hb
    rw [hline, htext'] at htext
    obtain rfl := Option.some.inj htext
    rcases hab with hlt | ⟨-, hlt⟩
    · omega
    · exact hwa.length_lt hwb hlt

end IrConvert.Dialect
