import IrConvert.Proofs.Dialect.Written
import IrConvert.Proofs.Text.Lines

namespace IrConvert

open Text (Closed FullLine blankChar)

theorem Text.ne_of_blankChar {c d : Char} (hc : blankChar c = true) (hd : blankChar d = false) :
    c ≠ d := by
  intro he
  rw [he, hd] at hc
  cases hc

/-- What stands at the start of a text with an ending stands at the start of the text, if the ending
does not start like any of it. -/
theorem Text.prefix_append_iff {front text ending : Text} (h : ∀ c ∈ ending.head?, c ∉ front) :
    front <+: text ++ ending ↔ front <+: text := by
  constructor
  · intro hprefix
    rcases List.prefix_or_prefix_of_prefix hprefix (List.prefix_append text ending) with hle | hge
    · exact hle
    · -- what `front` has beyond `text` stands at the start of the ending
      obtain ⟨more, rfl⟩ := hge
      have hmore : more <+: ending := (List.prefix_append_right_inj text).1 hprefix
      cases more with
      | nil => exact (List.append_nil text).symm ▸ List.prefix_rfl
      | cons c more =>
        obtain ⟨rest, rfl⟩ := hmore
        exact absurd (List.mem_append_right text List.mem_cons_self) (h c rfl)
  · intro hprefix
    exact hprefix.trans (List.prefix_append text ending)

namespace Dialect

theorem nameChar_of_blankChar {c : Char} (h : blankChar c = true) : nameChar c = false := by
  have hall : ∀ n ∈ Text.blanks, nameChar (Char.ofNat n) = false := by decide
  have hmem : c.toNat ∈ Text.blanks := List.contains_iff_mem.1 h
  rw [← Char.ofNat_toNat c]
  exact hall _ hmem

/-- No operation before the text goes on into it. -/
def Stops (text : Text) : Prop := ∀ c ∈ text.head?, nameChar c = false ∧ c ∉ ['"', '(']

theorem stops_slash (rest : Text) : Stops ('/' :: rest) := by
  intro c hc
  obtain rfl := Option.some.inj hc
  decide

theorem stops_of_blank {ending : Text} (h : ∀ c ∈ ending, blankChar c = true) : Stops ending := by
  intro c hc
  have hblank : blankChar c = true := h c (List.mem_of_mem_head? hc)
  refine ⟨nameChar_of_blankChar hblank, ?_⟩
  rw [List.mem_pair, not_or]
  exact ⟨Text.ne_of_blankChar hblank rfl, Text.ne_of_blankChar hblank rfl⟩

section Stops

variable {ending : Text} (h : Stops ending)

include h

theorem Stops.takeWhile_eq : ending.takeWhile nameChar = [] :=
  takeWhile_nameChar_eq_nil fun c hc => (h c hc).1

theorem Stops.dropWhile_eq : ending.dropWhile nameChar = ending := by
  have hsplit := List.takeWhile_append_dropWhile (p := nameChar) (l := ending)
  rwa [h.takeWhile_eq, List.nil_append] at hsplit

theorem Stops.takeWhile_append (text : Text) :
    (text ++ ending).takeWhile nameChar = text.takeWhile nameChar := by
  rw [List.takeWhile_append, h.takeWhile_eq, List.append_nil]
  split
  · next hlen => exact ((List.takeWhile_prefix nameChar).eq_of_length hlen).symm
  · rfl

theorem Stops.dropWhile_append (text : Text) :
    (text ++ ending).dropWhile nameChar = text.dropWhile nameChar ++ ending := by
  rw [List.dropWhile_append, h.dropWhile_eq]
  split
  · next hnil => rw [List.isEmpty_iff.1 hnil, List.nil_append]
  · rfl

theorem Stops.operationAt?_append (inString : Bool) (before : Option Char) (text : Text) :
    operationAt? inString before (text ++ ending) = operationAt? inString before text := by
  have hlead : (Text.after? lead (text ++ ending)).isSome = (Text.after? lead text).isSome := by
    have hnames : lead.all nameChar = true := by decide
    rw [Bool.eq_iff_iff, after?_isSome_iff, after?_isSome_iff]
    refine Text.prefix_append_iff fun c hc hmem => ?_
    have hname := List.all_eq_true.1 hnames c hmem
    rw [(h c hc).1] at hname
    cases hname
  have hquote (rest : Text) : (Text.after? ['"', '('] (rest ++ ending)).isSome =
      (Text.after? ['"', '('] rest).isSome := by
    rw [Bool.eq_iff_iff, after?_isSome_iff, after?_isSome_iff]
    exact Text.prefix_append_iff fun c hc => (h c hc).2
  have hplace (rest : Text) :
      namePlace inString before (rest ++ ending) = namePlace inString before rest := by
    rw [namePlace, namePlace, hquote]
  rw [operationAt?, operationAt?, hlead, h.takeWhile_append, h.dropWhile_append, hplace]

end Stops

theorem operationAt?_of_ne {c : Char} (hc : c ≠ 'g') (inString : Bool) (before : Option Char)
    (rest : Text) : operationAt? inString before (c :: rest) = none := by
  have hlead : (Text.after? lead (c :: rest)).isSome = false := by
    rw [← Bool.not_eq_true, after?_isSome_iff, lead_eq, List.cons_prefix_cons]
    exact fun hprefix => hc hprefix.1.symm
  rw [operationAt?, hlead]
  rfl

theorem scan_cons_of_blank {c : Char} (hc : blankChar c = true) (number : ℕ) (inString : Bool)
    (before : Option Char) (column : ℕ) (rest : Text) :
    scan number inString before column (c :: rest) =
      scan number inString (some c) (column + 1) rest := by
  have hslash : (c == '/') = false := beq_false_of_ne (Text.ne_of_blankChar hc rfl)
  have hquote : (c == '"') = false := beq_false_of_ne (Text.ne_of_blankChar hc rfl)
  have hnone := operationAt?_of_ne (Text.ne_of_blankChar hc rfl) inString before rest
  rw [scan, hslash, hnone, turnsString, hquote]
  simp

theorem scan_of_blank {ending : Text} (h : ∀ c ∈ ending, blankChar c = true) (number : ℕ)
    (inString : Bool) (before : Option Char) (column : ℕ) :
    scan number inString before column ending = [] := by
  induction ending generalizing before column with
  | nil => rfl
  | cons c rest ih =>
    rw [scan_cons_of_blank (h c List.mem_cons_self)]
    exact ih (fun d hd => h d (List.mem_cons_of_mem c hd)) _ _

/-- White space at the end of a line is not seen. -/
theorem scan_append_of_blank {ending : Text} (h : ∀ c ∈ ending, blankChar c = true) (number : ℕ)
    (text : Text) (inString : Bool) (before : Option Char) (column : ℕ) :
    scan number inString before column (text ++ ending) =
      scan number inString before column text := by
  induction text generalizing inString before column with
  | nil => exact scan_of_blank h number inString before column
  | cons c rest ih =>
    have hhead : ((rest ++ ending).head? == some '/') = (rest.head? == some '/') := by
      cases rest with
      | cons d rest => rfl
      | nil =>
        -- a slash at the end of the text is not followed by another one
        cases ending with
        | nil => rfl
        | cons d ending =>
          have hd : d ≠ '/' := Text.ne_of_blankChar (h d List.mem_cons_self) rfl
          simpa using hd
    have hat := (stops_of_blank h).operationAt?_append inString before (c :: rest)
    rw [List.cons_append] at hat ⊢
    rw [scan, scan, hhead, hat]
    simp only [ih]

/-- The same operation some lines further down. -/
def Occurrence.below (o : Occurrence) (lines : ℕ) : Occurrence := { o with line := o.line + lines }

theorem Occurrence.below_below (o : Occurrence) (lines more : ℕ) :
    (o.below lines).below more = o.below (lines + more) := by
  rw [below, below, below, Nat.add_assoc]

theorem scan_below (lines number : ℕ) (text : Text) (inString : Bool) (before : Option Char)
    (column : ℕ) :
    scan (number + lines) inString before column text =
      (scan number inString before column text).map (·.below lines) := by
  induction text generalizing inString before column with
  | nil => rfl
  | cons c rest ih =>
    rw [scan, scan]
    split
    · rfl
    · dsimp only
      rw [ih]
      cases operationAt? inString before (c :: rest) with
      | none => rfl
      | some name => rfl

/-- A line can be scanned together with its end. -/
theorem occurrencesInLine_withoutEnd (number : ℕ) (piece : Text) :
    occurrencesInLine number piece.withoutEnd = occurrencesInLine number piece := by
  obtain ⟨ending, he, hblank⟩ := Text.withoutEnd_append piece
  have hscan := scan_append_of_blank hblank number piece.withoutEnd false none 0
  rw [he] at hscan
  exact hscan.symm

theorem occurrences_eq (source : Text) :
    occurrences source = source.pieces.zipIdx.flatMap fun p => occurrencesInLine p.2 p.1 := by
  rw [occurrences, Text.lines, List.zipIdx_map, List.flatMap_map]
  simp only [Prod.map_fst, Prod.map_snd, occurrencesInLine_withoutEnd, id]

theorem occurrences_of_pieces_eq {text piece : Text} (h : text.pieces = [piece]) :
    occurrences text = occurrencesInLine 0 piece := by
  rw [occurrences_eq, h]
  exact List.append_nil _

/-- The operations of a text that goes on after a line end are those before and those after. -/
theorem occurrences_append {text : Text} (h : Closed text) (other : Text) :
    occurrences (text ++ other) =
      occurrences text ++ (occurrences other).map (·.below (text.count '\n')) := by
  have hbelow (lines : ℕ) : other.pieces.zipIdx lines =
      other.pieces.zipIdx.map fun p => (p.1, p.2 + lines) := by
    rw [List.zipIdx_eq_map_add]
    simp only [Nat.add_comm]
  rw [occurrences_eq, occurrences_eq, occurrences_eq, Text.pieces_append h, List.zipIdx_append,
    List.flatMap_append, Text.length_pieces h, Nat.zero_add, hbelow, List.flatMap_map,
    List.map_flatMap]
  simp only [occurrencesInLine, scan_below]

theorem occurrences_newline (text : Text) : occurrences (text ++ ['\n']) = occurrences text := by
  have hblank : ∀ c ∈ ['\n'], blankChar c = true := List.forall_mem_singleton.2 rfl
  induction text using Text.lineInduction with
  | nil => rfl
  | last line hne hopen =>
    have hfull : FullLine (line ++ ['\n']) := ⟨line, hopen, rfl⟩
    rw [occurrences_of_pieces_eq (Text.pieces_fullLine hfull),
      occurrences_of_pieces_eq (Text.pieces_of_not_mem hne hopen)]
    exact scan_append_of_blank hblank 0 line false none 0
  | line full rest hfull ih =>
    rw [List.append_assoc, occurrences_append hfull.closed, occurrences_append hfull.closed, ih]

/-- Two texts put together by a line end have the operations of both. -/
theorem occurrences_append_newline (text other : Text) :
    occurrences (text ++ '\n' :: other) =
      occurrences text ++ (occurrences other).map (·.below (text.count '\n' + 1)) := by
  have hclosed : Closed (text ++ ['\n']) := Or.inr List.getLast?_concat
  have hcount : (text ++ ['\n']).count '\n' = text.count '\n' + 1 := by
    rw [List.count_append, List.count_singleton_self]
  rw [List.append_cons, occurrences_append hclosed, occurrences_newline, hcount]

end Dialect

end IrConvert
