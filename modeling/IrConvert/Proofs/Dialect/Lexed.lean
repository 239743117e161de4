import IrConvert.Proofs.Dialect.Lexing
import IrConvert.Proofs.Dialect.Shown
import IrConvert.Proofs.Dialect.Written

namespace IrConvert.Dialect

structure Literal (chars front content rest : Text) : Prop where
  code : Code front
  body : StringBody content
  chars_eq : chars = front ++ '"' :: (content ++ '"' :: rest)

/-- A longest name in code that does not go on with anything before it. -/
def BareAt (chars : Text) (column : ℕ) (name : Text) : Prop :=
  ∃ front rest : Text, chars = front ++ (name ++ rest) ∧ front.length = column ∧ Code front ∧
    (∀ c ∈ front.getLast?, gluedChar c = false) ∧ ∀ c ∈ rest.head?, nameChar c = false

/-- A literal that is a name and stands before a parenthesis. -/
def QuotedAt (chars : Text) (column : ℕ) (name : Text) : Prop :=
  ∃ front rest : Text, Literal chars front name ('(' :: rest) ∧ front.length + 1 = column

structure LexedAt (chars : Text) (column : ℕ) (name : Text) : Prop where
  operation : OperationName name
  characters : ∀ c ∈ name, nameChar c = true
  place : BareAt chars column name ∨ QuotedAt chars column name

/-- In a literal, a name between an escaped quote and the end of the literal before a
parenthesis. -/
structure EndsLiteralAt (chars : Text) (column : ℕ) (name : Text) : Prop where
  operation : OperationName name
  characters : ∀ c ∈ name, nameChar c = true
  place : ∃ front rest : Text, InEscape front ∧ front.length + 1 = column ∧
    chars = front ++ '"' :: (name ++ '"' :: '(' :: rest)

/-- Every quote before a column that directly follows a backslash is escaped by it, or stands in a
comment. -/
def BackslashesEscape (chars : Text) (column : ℕ) : Prop :=
  ∀ position < column, chars[position]? = some '"' →
    (chars.take position).getLast? = some '\\' →
    InEscape (chars.take position) ∨ InComment (chars.take position)

instance (chars : Text) (column : ℕ) : Decidable (BackslashesEscape chars column) :=
  inferInstanceAs (Decidable (∀ position < column, _ → _ → _))

theorem BackslashesEscape.mono {chars : Text} {column column' : ℕ}
    (h : BackslashesEscape chars column) (hle : column' ≤ column) :
    BackslashesEscape chars column' := fun position hlt => h position (hlt.trans_le hle)

section Line

variable {chars : Text} {column : ℕ}

theorem take_succ_of_getElem? {c : Char} (h : chars[column]? = some c) :
    chars.take (column + 1) = chars.take column ++ [c] := by
  rw [List.take_add_one, h]
  rfl

/-- What a comment hides stays hidden. -/
theorem lexing_take_ne_comment (h : lexing (chars.take (column + 1)) ≠ .comment) :
    lexing (chars.take column) ≠ .comment := by
  intro hcomment
  rw [List.take_add_one, lexing_append, hcomment, foldl_next_of_comment] at h
  exact h rfl

theorem getLast?_take_of_getElem? {c : Char} (h : chars[column]? = some c) :
    (chars.take column).getLast? = charBefore? chars column := by
  have hlt : column < chars.length := (List.getElem?_eq_some_iff.1 h).1
  cases column with
  | zero => rfl
  | succ previous =>
    have hprevious : chars[previous]? = some chars[previous] :=
      List.getElem?_eq_getElem (by omega)
    rw [take_succ_of_getElem? hprevious, List.getLast?_concat, charBefore?, hprevious]

theorem activeQuote_iff : activeQuote chars column = true ↔
    chars[column]? = some '"' ∧ (chars.take column).getLast? ≠ some '\\' := by
  rw [activeQuote, Bool.and_eq_true, beq_iff_eq]
  refine and_congr_right fun hquote => ?_
  rw [getLast?_take_of_getElem? hquote]
  cases column <;> simp [charBefore?]

/-- A quote turns the parity exactly if it opens or closes a literal. -/
theorem activeQuote_iff_lexing (hquotes : BackslashesEscape chars (column + 1))
    (hcomment : lexing (chars.take column) ≠ .comment) :
    activeQuote chars column = true ↔
      chars[column]? = some '"' ∧ lexing (chars.take column) ≠ .escape := by
  rw [activeQuote_iff]
  refine and_congr_right fun hquote => not_congr ?_
  constructor
  · intro hlast
    rcases hquotes column (Nat.lt_succ_self column) hquote hlast with hescape | hin
    · exact (inEscape_iff _).1 hescape
    · exact absurd ((inComment_iff _).1 hin) hcomment
  · intro hescape
    obtain ⟨opened, -, hfront⟩ := (inEscape_iff _).2 hescape
    rw [hfront, List.getLast?_concat]

/-- Outside of comments a column is in code if the number of quotes before it is even. -/
theorem even_quotesBefore_iff (hquotes : BackslashesEscape chars column)
    (hcomment : lexing (chars.take column) ≠ .comment) :
    Even (quotesBefore chars column) ↔ Code (chars.take column) := by
  induction column with
  | zero => exact iff_of_true Even.zero .nil
  | succ column ih =>
    have hbefore := lexing_take_ne_comment hcomment
    have heven := ih (hquotes.mono column.le_succ) hbefore
    have hactive := activeQuote_iff_lexing hquotes hbefore
    rw [even_quotesBefore_succ, heven, ← Bool.not_eq_true, hactive]
    cases hc : chars[column]? with
    | none =>
      rw [List.take_add_one, hc]
      simp
    | some c =>
      rw [take_succ_of_getElem? hc] at hcomment ⊢
      rw [code_concat_iff hcomment, Option.some.injEq]

theorem commentStart_iff_lexing (hquotes : BackslashesEscape chars column)
    (hcomment : lexing (chars.take (column + 1)) ≠ .comment) :
    CommentStart chars column ↔ lexing (chars.take (column + 2)) = .comment := by
  have heven := even_quotesBefore_iff hquotes (lexing_take_ne_comment hcomment)
  cases hd : chars[column + 1]? with
  | none =>
    rw [List.take_add_one, hd]
    refine iff_of_false ?_ (by simpa using hcomment)
    intro hstart
    have hslash := hstart.2.1
    rw [hd] at hslash
    cases hslash
  | some d =>
    have hlt : column + 1 < chars.length := (List.getElem?_eq_some_iff.1 hd).1
    have hc : chars[column]? = some chars[column] := List.getElem?_eq_getElem (by omega)
    rw [take_succ_of_getElem? hc] at hcomment
    rw [take_succ_of_getElem? hd, take_succ_of_getElem? hc, comment_iff hcomment, CommentStart,
      heven, hc, hd, Option.some.injEq, Option.some.injEq]

/-- A column is behind no comment start if it is in no comment, nor in the middle of the slashes of
one. -/
theorem uncommented_iff (hquotes : BackslashesEscape chars column) :
    (∀ position < column, ¬ CommentStart chars position) ↔
      lexing (chars.take (column + 1)) ≠ .comment := by
  induction column with
  | zero =>
    refine iff_of_true (fun position h => absurd h (Nat.not_lt_zero _)) ?_
    cases chars with
    | nil => decide
    | cons c rest =>
      show Lexing.code.next c ≠ .comment
      rw [Lexing.next]
      split_ifs <;> decide
  | succ column ih =>
    have hbefore := hquotes.mono column.le_succ
    rw [Nat.forall_lt_succ_right, ih hbefore]
    constructor
    · intro h
      rw [Ne, ← commentStart_iff_lexing hbefore h.1]
      exact h.2
    · intro h
      have hcomment := lexing_take_ne_comment h
      exact ⟨hcomment, (commentStart_iff_lexing hbefore hcomment).not.2 h⟩

end Line

section Cut

variable {front name rest : Text}

theorem longestName_of_cut (hname : ∀ c ∈ name, nameChar c = true)
    (hrest : ∀ c ∈ rest.head?, nameChar c = false) :
    LongestName (front ++ (name ++ rest)) front.length name := by
  rw [longestName_iff, List.drop_left, List.takeWhile_append_of_pos hname,
    takeWhile_nameChar_eq_nil hrest, List.append_nil]

theorem uncommented_cut (hoperation : OperationName name)
    (hquotes : BackslashesEscape (front ++ (name ++ rest)) front.length) :
    (∀ position < front.length, ¬ CommentStart (front ++ (name ++ rest)) position) ↔
      lexing front ≠ .comment := by
  obtain ⟨tail, rfl⟩ := hoperation.head
  have htake : (front ++ ('g' :: tail ++ rest)).take (front.length + 1) = front ++ ['g'] := by
    rw [List.take_length_add_append]
    rfl
  rw [uncommented_iff hquotes, htake, lexing_concat]
  -- the first letter of a name is no slash
  cases lexing front <;> decide

theorem freePlace_cut (hquotes : BackslashesEscape (front ++ (name ++ rest)) front.length)
    (hcomment : lexing front ≠ .comment) :
    FreePlace (front ++ (name ++ rest)) front.length name ↔
      (Code front ∧ ∀ c ∈ front.getLast?, gluedChar c = false) ∨
      (¬ Code front ∧ front.getLast? = some '"' ∧ ['"', '('] <+: rest) := by
  have htake : (front ++ (name ++ rest)).take front.length = front := List.take_left
  have heven : Even (quotesBefore (front ++ (name ++ rest)) front.length) ↔ Code front := by
    rw [even_quotesBefore_iff hquotes (htake.symm ▸ hcomment), htake]
  have hdrop : (front ++ (name ++ rest)).drop (front.length + name.length) = rest := by
    rw [← List.drop_drop, List.drop_left, List.drop_left]
  rw [FreePlace, heven, hdrop]
  rcases List.eq_nil_or_concat' front with rfl | ⟨init, last, rfl⟩
  · have hnone : ∀ c ∈ ([] : Text).getLast?, gluedChar c = false := by
      intro c hc
      cases hc
    exact iff_of_true (.inl ⟨.nil, .inl rfl⟩) (.inl ⟨.nil, hnone⟩)
  · have hlast : (init ++ [last] ++ (name ++ rest))[(init ++ [last]).length - 1]? = some last := by
      rw [List.length_append, List.append_assoc]
      show (init ++ ([last] ++ (name ++ rest)))[init.length]? = some last
      rw [List.getElem?_append_right le_rfl, Nat.sub_self]
      rfl
    rw [hlast, List.getLast?_concat]
    simp

/-- Where a cut line names an operation. -/
theorem writtenAt_cut (hname : ∀ c ∈ name, nameChar c = true) (hoperation : OperationName name)
    (hrest : ∀ c ∈ rest.head?, nameChar c = false)
    (hquotes : BackslashesEscape (front ++ (name ++ rest)) front.length)
    (hcomment : lexing front ≠ .comment)
    (hplace : (Code front ∧ ∀ c ∈ front.getLast?, gluedChar c = false) ∨
      (¬ Code front ∧ front.getLast? = some '"' ∧ ['"', '('] <+: rest)) :
    WrittenAt (front ++ (name ++ rest)) front.length name where
  uncommented := (uncommented_cut hoperation hquotes).2 hcomment
  run := longestName_of_cut hname hrest
  operation := hoperation
  place := (freePlace_cut hquotes hcomment).2 hplace

end Cut

section Agreement

variable {chars name : Text} {column : ℕ}

theorem stringBody_of_name (hname : ∀ c ∈ name, nameChar c = true) : StringBody name := by
  induction name with
  | nil => exact .nil
  | cons c name ih =>
    obtain ⟨hc, hrest⟩ := List.forall_mem_cons.1 hname
    refine .plain ?_ ?_ (ih hrest)
    · rintro rfl
      revert hc
      decide
    · rintro rfl
      revert hc
      decide

/-- The scan takes a quoted name before a parenthesis for an operation both where the first quote
opens a literal and where it is escaped. -/
theorem writtenAt_quoted {front rest : Text} (hopen : Code front ∨ InEscape front)
    (hname : ∀ c ∈ name, nameChar c = true) (hoperation : OperationName name)
    (hquotes : BackslashesEscape (front ++ '"' :: (name ++ '"' :: '(' :: rest))
      (front.length + 1)) :
    WrittenAt (front ++ '"' :: (name ++ '"' :: '(' :: rest)) (front.length + 1) name := by
  have hlength : (front ++ ['"']).length = front.length + 1 := List.length_append
  have hstring : lexing (front ++ ['"']) = .string := (lexing_quote_iff front).2 hopen
  have hcode : ¬ Code (front ++ ['"']) := not_code_of_lexing hstring (by decide) (by decide)
  rw [List.append_cons, ← hlength] at hquotes ⊢
  refine writtenAt_cut hname hoperation ?_ hquotes ?_ (.inr ⟨hcode, List.getLast?_concat, ?_⟩)
  · intro c hc
    obtain rfl := Option.some.inj hc
    decide
  · rw [hstring]
    decide
  · exact List.prefix_append ['"', '('] rest

theorem BareAt.writtenAt (h : BareAt chars column name) (hname : ∀ c ∈ name, nameChar c = true)
    (hoperation : OperationName name) (hquotes : BackslashesEscape chars column) :
    WrittenAt chars column name := by
  obtain ⟨front, rest, rfl, rfl, hcode, hlast, hrest⟩ := h
  apply writtenAt_cut hname hoperation hrest hquotes _ (.inl ⟨hcode, hlast⟩)
  exact fun hcomment => not_code_of_lexing hcomment (by decide) (by decide) hcode

theorem LexedAt.writtenAt (h : LexedAt chars column name)
    (hquotes : BackslashesEscape chars column) : WrittenAt chars column name := by
  rcases h.place with hbare | ⟨front, rest, hliteral, rfl⟩
  · exact hbare.writtenAt h.characters h.operation hquotes
  · obtain ⟨hcode, -, rfl⟩ := hliteral
    exact writtenAt_quoted (.inl hcode) h.characters h.operation hquotes

theorem EndsLiteralAt.writtenAt (h : EndsLiteralAt chars column name)
    (hquotes : BackslashesEscape chars column) : WrittenAt chars column name := by
  obtain ⟨hoperation, hname, front, rest, hescape, rfl, rfl⟩ := h
  exact writtenAt_quoted (.inr hescape) hname hoperation hquotes

theorem WrittenAt.lexedAt_or (h : WrittenAt chars column name)
    (hquotes : BackslashesEscape chars column) :
    LexedAt chars column name ∨ EndsLiteralAt chars column name := by
  have hname := h.run.characters
  have hoperation := h.operation
  obtain ⟨front, rest, rfl, rfl, hrest⟩ := h.cut
  have hcomment := (uncommented_cut hoperation hquotes).1 h.uncommented
  rcases (freePlace_cut hquotes hcomment).1 h.place with ⟨hcode, hlast⟩ | ⟨hcode, hlast, hends⟩
  · exact .inl ⟨hoperation, hname, .inl ⟨front, rest, rfl, rfl, hcode, hlast, hrest⟩⟩
  · obtain ⟨front, rfl⟩ := List.getLast?_eq_some_iff.1 hlast
    obtain ⟨rest, rfl⟩ := hends
    have hlength : (front ++ ['"']).length = front.length + 1 := List.length_append
    have hchars : front ++ ['"'] ++ (name ++ (['"', '('] ++ rest)) =
        front ++ '"' :: (name ++ '"' :: '(' :: rest) := (List.append_cons ..).symm
    have hopen : Code front ∨ InEscape front := by
      rw [code_concat_iff hcomment] at hcode
      rw [inEscape_iff]
      tauto
    rcases hopen with hopen | hescape
    · exact .inl ⟨hoperation, hname, .inr ⟨front, rest,
        ⟨hopen, stringBody_of_name hname, hchars⟩, hlength.symm⟩⟩
    · exact .inr ⟨hoperation, hname, front, rest, hescape, hlength.symm, hchars⟩

theorem LexedAt.not_endsLiteralAt (h : LexedAt chars column name) :
    ¬ EndsLiteralAt chars column name := by
  intro h'
  obtain ⟨front, rest, hescape, hcolumn, hchars⟩ := h'.place
  rcases h.place with ⟨front', rest', hchars', hcolumn', hcode, -, -⟩ |
      ⟨front', rest', ⟨hcode, -, hchars'⟩, hcolumn'⟩
  · -- the column is in a literal, and so not in code
    have hstring := (lexing_quote_iff front).2 (.inr hescape)
    have hfront : front' = front ++ ['"'] := by
      rw [List.append_cons] at hchars
      refine (List.append_inj (hchars'.symm.trans hchars) ?_).1
      rw [List.length_append, hcolumn', ← hcolumn]
      rfl
    exact not_code_of_lexing hstring (by decide) (by decide) (hfront ▸ hcode)
  · have hfront : front' = front :=
      (List.append_inj (hchars'.symm.trans hchars) (by omega)).1
    have hstate := (inEscape_iff front).1 hescape
    exact not_code_of_lexing hstate (by decide) (by decide) (hfront ▸ hcode)

/-- A name at the end of a line, by what can be computed. -/
theorem lexedAt_of_split {front : Text} {last : Char} (hchars : chars = front ++ [last] ++ name)
    (hcolumn : front.length + 1 = column) (hcode : Code (front ++ [last]))
    (hlast : gluedChar last = false) (hoperation : isOperation name = true)
    (hname : name.all nameChar = true) : LexedAt chars column name where
  operation := (isOperation_iff name).1 hoperation
  characters := List.all_eq_true.1 hname
  place := by
    refine .inl ⟨front ++ [last], [], ?_, ?_, hcode, ?_, nofun⟩
    · rw [hchars, List.append_nil]
    · rw [List.length_append, ← hcolumn]
      rfl
    · intro c hc
      rw [List.getLast?_concat] at hc
      rwa [← Option.some.inj hc]

end Agreement

/-- Up to a quote that follows a backslash and is not escaped, the scan finds what lexing finds, and
the names that an escaped quote makes look like a literal. -/
theorem occurrences_lexed {source chars : Text} {number column : ℕ}
    (hline : source.lines[number]? = some chars) (hquotes : BackslashesEscape chars column)
    (name : Text) :
    (⟨number, column, name⟩ ∈ occurrences source ↔
      LexedAt chars column name ∨ EndsLiteralAt chars column name) ∧
    ¬ (LexedAt chars column name ∧ EndsLiteralAt chars column name) := by
  refine ⟨?_, fun h => h.1.not_endsLiteralAt h.2⟩
  rw [mem_occurrences_iff]
  constructor
  · intro h
    obtain ⟨found, hfound, hwritten⟩ := h
    obtain rfl := Option.some.inj (hline.symm.trans hfound)
    exact hwritten.lexedAt_or hquotes
  · intro h
    refine ⟨chars, hline, ?_⟩
    rcases h with h | h
    · exact h.writtenAt hquotes
    · exact h.writtenAt hquotes

def escapedQuote : Text := "\"a\\\"graphblas.a\"( graphblas.b"

theorem occurrences_lexed_of_escaped_quote :
    ⟨0, 18, "graphblas.b".toList⟩ ∈ occurrences escapedQuote ∧
      ⟨0, 4, "graphblas.a".toList⟩ ∈ occurrences escapedQuote ∧
      ¬ LexedAt escapedQuote 4 "graphblas.a".toList := by
  have hline : escapedQuote.lines[0]? = some escapedQuote := by decide +kernel
  have hquotes : BackslashesEscape escapedQuote 18 := by decide +kernel
  have hlexed : LexedAt escapedQuote 18 "graphblas.b".toList :=
    @lexedAt_of_split _ _ _ (escapedQuote.take 17) ' ' (by decide +kernel) (by decide +kernel)
      (by decide +kernel) (by decide) (by decide +kernel) (by decide +kernel)
  have hends : EndsLiteralAt escapedQuote 4 "graphblas.a".toList := by
    refine ⟨(isOperation_iff _).1 (by decide +kernel), List.all_eq_true.1 (by decide +kernel), ?_⟩
    exact ⟨escapedQuote.take 3, " graphblas.b".toList, by decide +kernel, by decide +kernel,
      by decide +kernel⟩
  have hbefore : BackslashesEscape escapedQuote 4 := hquotes.mono (by decide)
  obtain ⟨hfound, hnot⟩ := occurrences_lexed hline hbefore "graphblas.a".toList
  exact ⟨(occurrences_lexed hline hquotes _).1.2 (.inl hlexed), hfound.2 (.inr hends),
    fun hlexed => hnot ⟨hlexed, hends⟩⟩

def escapedBackslash : Text := "\"a\\\\\" graphblas.foo"

/-- The scan takes the quote after an escaped backslash for an escaped one, and overlooks what
follows the literal that the quote closes. -/
theorem exists_overlooked :
    ¬ ∀ (source : Text) (number column : ℕ) (name : Text),
      ⟨number, column, name⟩ ∈ occurrences source ↔
        ∃ chars, source.lines[number]? = some chars ∧ LexedAt chars column name := by
  intro h
  have hline : escapedBackslash.lines[0]? = some escapedBackslash := by decide +kernel
  have hnone : occurrences escapedBackslash = [] := by decide +kernel
  have hlexed : LexedAt escapedBackslash 6 "graphblas.foo".toList :=
    @lexedAt_of_split _ _ _ (escapedBackslash.take 5) ' ' (by decide +kernel) (by decide +kernel)
      (by decide +kernel) (by decide) (by decide +kernel) (by decide +kernel)
  have hfound := (h escapedBackslash 0 6 _).2 ⟨_, hline, hlexed⟩
  rw [hnone] at hfound
  cases hfound

end IrConvert.Dialect
