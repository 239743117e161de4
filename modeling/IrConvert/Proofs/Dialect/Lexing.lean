import IrConvert.Text.Basic
import Mathlib.Data.List.Basic
import Mathlib.Data.List.Induction

namespace IrConvert.Dialect

inductive StringBody : Text → Prop
  | nil : StringBody []
  | plain {c : Char} {rest : Text} : c ≠ '"' → c ≠ '\\' → StringBody rest → StringBody (c :: rest)
  | escaped {c : Char} {rest : Text} : StringBody rest → StringBody ('\\' :: c :: rest)

/-- The front of a line up to a place that is neither in a string literal nor in a comment. -/
inductive Code : Text → Prop
  | nil : Code []
  | char {front : Text} {c : Char} : Code front → c ≠ '"' →
      (c = '/' → front.getLast? ≠ some '/') → Code (front ++ [c])
  | literal {front body : Text} : Code front → StringBody body →
      Code (front ++ '"' :: (body ++ ['"']))

/-- Up to a place in a literal, not right after a backslash that takes the next character along. -/
def InString (front : Text) : Prop :=
  ∃ code body : Text, Code code ∧ StringBody body ∧ front = code ++ '"' :: body

/-- Up to a place in a literal, where the next character is taken along. -/
def InEscape (front : Text) : Prop := ∃ opened : Text, InString opened ∧ front = opened ++ ['\\']

def InComment (front : Text) : Prop :=
  ∃ code rest : Text, Code code ∧ code.getLast? = some '/' ∧ front = code ++ '/' :: rest

theorem StringBody.append {body other : Text} (h : StringBody body) (h' : StringBody other) :
    StringBody (body ++ other) := by
  induction h with
  | nil => exact h'
  | plain hquote hbackslash _ ih => exact .plain hquote hbackslash ih
  | escaped _ ih => exact .escaped ih

/-- What a place is in. A slash in code may be the first one of a comment. -/
inductive Lexing where
  | code
  | slash
  | string
  | escape
  | comment
deriving DecidableEq

namespace Lexing

def next : Lexing → Char → Lexing
  | code, c => if c = '"' then string else if c = '/' then slash else code
  | slash, c => if c = '"' then string else if c = '/' then comment else code
  | string, c => if c = '"' then code else if c = '\\' then escape else string
  | escape, _ => string
  | comment, _ => comment

def Admits : Lexing → Text → Prop
  | code, front => Code front ∧ front.getLast? ≠ some '/'
  | slash, front => Code front ∧ front.getLast? = some '/'
  | string, front => InString front
  | escape, front => InEscape front
  | comment, front => InComment front

theorem Admits.next_char {state : Lexing} {front : Text} (h : state.Admits front) (c : Char) :
    (state.next c).Admits (front ++ [c]) := by
  have hlast : (front ++ [c]).getLast? = some c := List.getLast?_concat
  cases state with
  | code =>
    obtain ⟨hcode, hslash⟩ := h
    rw [next]
    split_ifs with hquote hc
    · exact ⟨front, [], hcode, .nil, by rw [hquote]⟩
    · exact ⟨hcode.char hquote fun _ => hslash, hc ▸ hlast⟩
    · refine ⟨hcode.char hquote fun he => absurd he hc, ?_⟩
      rw [hlast]
      exact fun he => hc (Option.some.inj he)
  | slash =>
    obtain ⟨hcode, hslash⟩ := h
    rw [next]
    split_ifs with hquote hc
    · exact ⟨front, [], hcode, .nil, by rw [hquote]⟩
    · exact ⟨front, [], hcode, hslash, by rw [hc]⟩
    · refine ⟨hcode.char hquote fun he => absurd he hc, ?_⟩
      rw [hlast]
      exact fun he => hc (Option.some.inj he)
  | string =>
    obtain ⟨code, body, hcode, hbody, rfl⟩ := h
    rw [next]
    split_ifs with hquote hbackslash
    · subst hquote
      refine ⟨?_, ?_⟩
      · rw [List.append_assoc, List.cons_append]
        exact hcode.literal hbody
      · rw [hlast]
        decide
    · exact ⟨_, ⟨code, body, hcode, hbody, rfl⟩, by rw [hbackslash]⟩
    · refine ⟨code, body ++ [c], hcode, hbody.append (.plain hquote hbackslash .nil), ?_⟩
      rw [List.append_assoc, List.cons_append]
  | escape =>
    obtain ⟨opened, ⟨code, body, hcode, hbody, rfl⟩, rfl⟩ := h
    refine ⟨code, body ++ ['\\', c], hcode, hbody.append (.escaped .nil), ?_⟩
    simp only [List.append_assoc, List.cons_append, List.nil_append]
  | comment =>
    obtain ⟨code, rest, hcode, hslash, rfl⟩ := h
    refine ⟨code, rest ++ [c], hcode, hslash, ?_⟩
    rw [List.append_assoc, List.cons_append]

end Lexing

def lexing (front : Text) : Lexing := front.foldl Lexing.next .code

theorem lexing_concat (front : Text) (c : Char) : lexing (front ++ [c]) = (lexing front).next c :=
  List.foldl_concat ..

theorem admits_lexing (front : Text) : (lexing front).Admits front := by
  induction front using List.reverseRecOn with
  | nil => exact ⟨.nil, nofun⟩
  | append_singleton front c ih =>
    rw [lexing_concat]
    exact ih.next_char c

theorem StringBody.foldl_next {body : Text} (h : StringBody body) :
    body.foldl Lexing.next .string = .string := by
  induction h with
  | nil => rfl
  | plain hquote hbackslash _ ih =>
    rw [List.foldl_cons, Lexing.next, if_neg hquote, if_neg hbackslash, ih]
  | escaped _ ih => exact ih

theorem foldl_next_of_comment (rest : Text) : rest.foldl Lexing.next .comment = .comment := by
  induction rest with
  | nil => rfl
  | cons c rest ih => exact ih

theorem Lexing.next_quote (p : Prop) [Decidable p] :
    (if p then Lexing.slash else Lexing.code).next '"' = .string := by
  split_ifs <;> rfl

theorem lexing_append (front rest : Text) :
    lexing (front ++ rest) = rest.foldl Lexing.next (lexing front) := List.foldl_append

/-- In code only the last character counts. -/
theorem Code.lexing_eq {front : Text} (h : Code front) :
    lexing front = if front.getLast? = some '/' then .slash else .code := by
  induction h with
  | nil => rfl
  | @char front c _ hquote hslash ih =>
    have hnext : lexing (front ++ [c]) = if c = '/' then .slash else .code := by
      rw [lexing_concat, ih]
      split_ifs with hlast hc hc
      · exact absurd hlast (hslash hc)
      · rw [Lexing.next, if_neg hquote, if_neg hc]
      · rw [Lexing.next, if_neg hquote, if_pos hc]
      · rw [Lexing.next, if_neg hquote, if_neg hc]
    rw [hnext, List.getLast?_concat]
    simp only [Option.some.injEq]
  | @literal front body _ hbody ih =>
    have hopen : (lexing front).next '"' = .string := by
      rw [ih]
      exact Lexing.next_quote _
    have hlast : (front ++ '"' :: (body ++ ['"'])).getLast? = some '"' := by
      rw [← List.cons_append, ← List.append_assoc, List.getLast?_concat]
    rw [hlast, if_neg (by decide), lexing_append, List.foldl_cons, hopen, List.foldl_append,
      hbody.foldl_next]
    rfl

theorem Code.next_quote {front : Text} (h : Code front) : (lexing front).next '"' = .string := by
  rw [h.lexing_eq]
  exact Lexing.next_quote _

theorem InString.lexing_eq {front : Text} (h : InString front) : lexing front = .string := by
  obtain ⟨code, body, hcode, hbody, rfl⟩ := h
  rw [lexing_append, List.foldl_cons, hcode.next_quote, hbody.foldl_next]

theorem lexing_eq_of_admits {state : Lexing} {front : Text} (h : state.Admits front) :
    lexing front = state := by
  cases state with
  | code =>
    obtain ⟨hcode, hslash⟩ := h
    rw [hcode.lexing_eq, if_neg hslash]
  | slash =>
    obtain ⟨hcode, hslash⟩ := h
    rw [hcode.lexing_eq, if_pos hslash]
  | string => exact InString.lexing_eq h
  | escape =>
    obtain ⟨opened, hopened, rfl⟩ := h
    rw [lexing_concat, hopened.lexing_eq]
    rfl
  | comment =>
    obtain ⟨code, rest, hcode, hslash, rfl⟩ := h
    rw [lexing_append, hcode.lexing_eq, if_pos hslash]
    exact foldl_next_of_comment rest

/-- Every place is in one of these, and in one only. -/
theorem lexing_eq_iff {state : Lexing} {front : Text} :
    lexing front = state ↔ state.Admits front := by
  constructor
  · rintro rfl
    exact admits_lexing front
  · exact lexing_eq_of_admits

theorem code_iff (front : Text) : Code front ↔ lexing front = .code ∨ lexing front = .slash := by
  rw [lexing_eq_iff, lexing_eq_iff]
  constructor
  · intro h
    by_cases hslash : front.getLast? = some '/'
    · exact .inr ⟨h, hslash⟩
    · exact .inl ⟨h, hslash⟩
  · rintro (h | h)
    · exact h.1
    · exact h.1

theorem not_code_of_lexing {front : Text} {state : Lexing} (h : lexing front = state)
    (hcode : state ≠ .code) (hslash : state ≠ .slash) : ¬ Code front := by
  rw [code_iff, h, not_or]
  exact ⟨hcode, hslash⟩

theorem inEscape_iff (front : Text) : InEscape front ↔ lexing front = .escape :=
  (@lexing_eq_iff .escape front).symm

theorem inComment_iff (front : Text) : InComment front ↔ lexing front = .comment :=
  (@lexing_eq_iff .comment front).symm

/-- In a line with no comment a quote that is not taken along leaves or enters the code, and no
other character does. -/
theorem code_concat_iff {front : Text} {c : Char} (h : lexing (front ++ [c]) ≠ .comment) :
    Code (front ++ [c]) ↔ (Code front ↔ ¬ (c = '"' ∧ lexing front ≠ .escape)) := by
  rw [code_iff, code_iff, lexing_concat]
  rw [lexing_concat] at h
  cases hstate : lexing front with
  | code => by_cases hquote : c = '"' <;> by_cases hc : c = '/' <;> simp [Lexing.next, hquote, hc]
  | slash =>
    rw [hstate] at h
    by_cases hquote : c = '"' <;> by_cases hc : c = '/' <;> simp_all [Lexing.next]
  | string =>
    by_cases hquote : c = '"' <;> by_cases hc : c = '\\' <;> simp [Lexing.next, hquote, hc]
  | escape => simp [Lexing.next]
  | comment =>
    rw [hstate] at h
    exact absurd rfl h

/-- After a quote a place is in a literal if the quote opens it, or is taken along in it. -/
theorem lexing_quote_iff (front : Text) :
    lexing (front ++ ['"']) = .string ↔ Code front ∨ InEscape front := by
  rw [code_iff, inEscape_iff, lexing_concat]
  cases lexing front <;> decide

/-- A comment starts with two slashes in code. -/
theorem comment_iff {front : Text} {c d : Char} (h : lexing (front ++ [c]) ≠ .comment) :
    lexing (front ++ [c] ++ [d]) = .comment ↔ c = '/' ∧ d = '/' ∧ Code front := by
  rw [code_iff, lexing_concat]
  rw [lexing_concat] at h ⊢
  by_cases hd : d = '/'
  · subst hd
    cases hstate : lexing front with
    | code => by_cases hquote : c = '"' <;> by_cases hc : c = '/' <;> simp [Lexing.next, *]
    | slash =>
      rw [hstate] at h
      by_cases hquote : c = '"' <;> by_cases hc : c = '/' <;> simp_all [Lexing.next]
    | string => by_cases hquote : c = '"' <;> by_cases hc : c = '\\' <;> simp [Lexing.next, *]
    | escape => simp [Lexing.next]
    | comment =>
      rw [hstate] at h
      exact absurd rfl h
  · generalize (lexing front).next c = state at h
    cases state <;> by_cases hquote : d = '"' <;> by_cases hc : d = '\\' <;>
      simp_all [Lexing.next]

instance : DecidablePred Code := fun front => decidable_of_iff' _ (code_iff front)

instance : DecidablePred InEscape := fun front => decidable_of_iff' _ (inEscape_iff front)

instance : DecidablePred InComment := fun front => decidable_of_iff' _ (inComment_iff front)

end IrConvert.Dialect
