import IrConvert.Proofs.Bytes.Chunks
import IrConvert.Proofs.Bytes.Operations

namespace IrConvert

namespace Text

theorem byteCount_of_isAscii {text : Text} (h : text.isAscii = true) :
    text.byteCount = text.length := by
  induction text with
  | nil => rfl
  | cons c rest ih =>
    obtain ⟨hc, hrest⟩ : c.toNat < 128 ∧ isAscii rest = true := by
      simpa [isAscii] using h
    have one : c.utf8Size = 1 := by
      rw [Char.utf8Size_eq_one_iff, UInt32.le_iff_toNat_le]
      exact Nat.le_of_lt_succ hc
    rw [byteCount, one, ih hrest, List.length_cons, Nat.add_comm]

theorem size_encode_ofNat (n : ℕ) : (encode (ofNat n)).size = (ofNat n).length := by
  rw [size_encode, byteCount_of_isAscii]
  apply List.all_eq_true.2
  intro c hc
  have hdigit := isDigit_of_mem_ofNat hc
  simp only [Char.isDigit, ge_iff_le, Bool.and_eq_true, decide_eq_true_eq,
    UInt32.le_iff_toNat_le] at hdigit
  have hle : c.toNat ≤ 57 := hdigit.2
  simp only [decide_eq_true_eq]
  omega

theorem joinRows_cons (first : Text) (rest : List Text) :
    joinRows (first :: rest) = first ++ rest.flatMap (['\n'] ++ ·) := by
  simp only [joinRows, joinWith]
  induction rest generalizing first with
  | nil => simp
  | cons second rest ih =>
    rw [List.intercalate_cons_cons, ih, List.flatMap_cons, List.append_assoc, List.append_assoc]

theorem Excerpt.render_of_shownOf {texts : List Text} {number column : ℕ} {e : Excerpt}
    (h : e.ShownOf texts number column) (message : Text) :
    e.render message = "```" ++ e.beforeRow.flatMap (['\n'] ++ ·) ++
      (['\n'] ++ ofNat number ++ "  | ") ++ e.row ++
      (['\n'] ++ spaces (column + (4 + (ofNat number).length)) ++ "^ ") ++ message ++ "\n```" := by
  have hwidth : column + (4 + (ofNat number).length) = column + 4 + (ofNat number).length := by
    omega
  rw [Excerpt.render, List.append_assoc, List.singleton_append, joinRows_cons,
    List.flatMap_append, hwidth]
  simp [Excerpt.numbered, Excerpt.caretRow, Excerpt.fence, h.number_eq, h.column_eq]

end Text

namespace Bytes

open Text (encode)
open Dialect (occurrences Occurrence Undeclared lookup?)

theorem outcome_shownBefore {texts : List Text} {number column : ℕ} {e : Text.Excerpt}
    (h : e.ShownOf texts number column) :
    (shownBefore (texts.map encode) number).outcome =
      .done (encode (e.beforeRow.flatMap (['\n'] ++ ·))) := by
  have hbefore := h.before_eq
  rcases Nat.eq_zero_or_pos number with rfl | hpos
  · rw [if_pos rfl] at hbefore
    rw [Text.Excerpt.beforeRow, hbefore]
    rfl
  · have hlt : number - 1 < texts.length := by
      have hrow := (List.getElem?_eq_some_iff.1 h.row_eq).1
      omega
    have hprevious : texts[number - 1]? = some texts[number - 1] := List.getElem?_eq_getElem hlt
    have hitem : (texts.map encode)[number - 1]? = some (encode texts[number - 1]) := by
      rw [List.getElem?_map, hprevious, Option.map_some]
    rw [if_neg (Nat.ne_of_gt hpos), hprevious] at hbefore
    rw [shownBefore, if_pos hpos, Walk.outcome_bind_of_done (outcome_item hitem),
      Walk.outcome_pure, ← Text.encode_append, Text.Excerpt.beforeRow, hbefore, h.number_eq]
    simp [Text.Excerpt.numbered]

theorem outcome_diagnostic {texts : List Text} {number column : ℕ} {e : Text.Excerpt}
    (h : e.ShownOf texts number column) (message : Text) :
    (diagnostic (texts.map encode) number column (encode message)).outcome =
      .done (encode (e.render message)) := by
  have hline : (texts.map encode)[number]? = some (encode e.row) := by
    rw [List.getElem?_map, h.row_eq, Option.map_some]
  rw [diagnostic, Walk.outcome_bind_of_done (outcome_shownBefore h),
    Walk.outcome_bind_of_done (outcome_item hline), Text.size_encode_ofNat,
    Text.Excerpt.render_of_shownOf h]
  simp only [Text.encode_append]
  rfl

theorem declaration?_encode (name : Text) : declaration? (encode name) = lookup? name := by
  rw [declaration?, lookup?]
  congr 1
  funext declaration
  rw [Bool.eq_iff_iff, same_iff, Text.encode_inj, beq_iff_eq]

theorem remark_encode (name : Text) : remark (encode name) = encode (Dialect.remark name) := by
  rw [remark, Dialect.remark_eq]
  simp only [Text.encode_append, ByteArray.append_assoc]

section Refusals

variable {source : Text} {o : Occurrence} {lines : List ByteArray}

theorem refuse_append_of_declared {before : List Occurrence} (h : ∀ p ∈ before, p.Declared)
    (rest : List Finding) :
    refuse lines (before.map (findingIn source) ++ rest) = refuse lines rest := by
  induction before with
  | nil => rfl
  | cons p before ih =>
    have hdeclared : (declaration? (findingIn source p).name).isNone ≠ true := by
      have hp := h p List.mem_cons_self
      rw [Occurrence.Declared, ← declaration?_encode] at hp
      simpa [Option.isSome_iff_ne_none] using hp
    rw [List.map_cons, List.cons_append, refuse, if_neg hdeclared,
      ih fun q hq => h q (List.mem_cons_of_mem p hq)]

theorem outcome_refuse_of_undeclared {e : Text.Excerpt} (h : ¬ o.Declared)
    (hshown : e.ShownOf source.lines o.line o.column) (more : List Finding) :
    (refuse (source.lines.map encode) (findingIn source o :: more)).outcome =
      .failed (encode (Undeclared.message ⟨o.name, e⟩)) := by
  have hundeclared : (declaration? (findingIn source o).name).isNone = true := by
    rw [Occurrence.Declared, ← declaration?_encode] at h
    simpa using h
  have hdiagnostic := outcome_diagnostic hshown (Dialect.remark o.name)
  rw [refuse, if_pos hundeclared, name_findingIn, line_findingIn, column_findingIn, remark_encode,
    Walk.outcome_bind_of_done hdiagnostic, Walk.outcome_fail, Undeclared.message_eq]
  simp only [Text.encode_append]

theorem outcome_verify (source : Text) :
    (verify (encode source)).outcome =
      (Dialect.verify source).mapReason fun undeclared => encode undeclared.message := by
  rw [verify, Walk.outcome_bind_of_done (outcome_findings source), lines_encode]
  cases hfound : Dialect.firstUndeclared? source with
  | none =>
    have hall := (Dialect.firstUndeclared?_eq_none_iff source).1 hfound
    rw [(Dialect.verify_eq_done_iff source).2 hall, ← List.append_nil ((occurrences source).map _),
      refuse_append_of_declared hall]
    rfl
  | some o =>
    obtain ⟨hundeclared, before, after, hsplit, hbefore⟩ :=
      (Dialect.firstUndeclared?_eq_some_iff source o).1 hfound
    obtain ⟨excerpt, hexcerpt, hverify⟩ := Dialect.verify_of_firstUndeclared? hfound
    rw [hverify, hsplit, List.map_append, List.map_cons, refuse_append_of_declared hbefore,
      outcome_refuse_of_undeclared hundeclared (Text.Excerpt.ShownOf.of_of? hexcerpt)]
    rfl

end Refusals

/-- The line of a finding and the line above it are there, the name stands whole at the offset, and
the column counts the characters before it. -/
structure Finding.InPlace (lines : List ByteArray) (f : Finding) : Prop where
  line_lt : f.line < lines.length
  above_lt : 0 < f.line → f.line - 1 < lines.length
  sliceable : Sliceable lines[f.line] f.offset (f.offset + f.name.size)
  name_eq : lines[f.line].extract f.offset (f.offset + f.name.size) = f.name
  column_eq : (Text.decode? (lines[f.line].extract 0 f.offset)).map List.length = some f.column

theorem inPlace_findingIn {source : Text} {o : Occurrence} (h : o ∈ occurrences source) :
    (findingIn source o).InPlace (lines (encode source)) := by
  obtain ⟨front, rest, hline, hoffset, hcolumn⟩ := exists_cut_of_mem h
  have hbytes : (lines (encode source))[(findingIn source o).line]? =
      some (encode (front ++ (o.name ++ rest))) := by
    rw [lines_encode, List.getElem?_map, line_findingIn, hline, Option.map_some]
  obtain ⟨hlt, hget⟩ := List.getElem?_eq_some_iff.1 hbytes
  have hfront : (encode (front ++ (o.name ++ rest))).extract 0 front.byteCount = encode front := by
    rw [Text.encode_append, ← Text.size_encode]
    exact ByteArray.extract_append_eq_left rfl
  refine ⟨hlt, fun _ => Nat.lt_of_le_of_lt (Nat.sub_le _ _) hlt, ?_, ?_, ?_⟩
  · rw [hget, hoffset, name_findingIn, Text.size_encode]
    exact sliceable_encode_iff.2 ⟨front, o.name, rest, rfl, rfl, rfl⟩
  · rw [hget, hoffset, name_findingIn, Text.size_encode, Text.extract_encode]
  · rw [hget, hoffset, hfront, Text.decode?_encode, hcolumn, Option.map_some]

theorem outcome_verify_ne_crashed (source : Text) :
    (verify (encode source)).outcome ≠ .crashed := by
  have hne := Dialect.verify_ne_crashed source
  rw [outcome_verify]
  cases h : Dialect.verify source with
  | done => simp [Outcome.mapReason]
  | failed => simp [Outcome.mapReason]
  | crashed => exact absurd h hne

/-- No work on the bytes of a source goes to a place that is not there: every slice that cuts it
into chunks or finds its operations holds whole characters, and every line that is shown is one of
its lines. What comes out are the bytes of what the characters give. -/
structure PlacesThere (source : Text) : Prop where
  chunks_sound : ∀ access ∈ (chunks (encode source)).accesses, access.Sound
  findings_sound : ∀ access ∈ (findings (encode source)).accesses, access.Sound
  verify_sound : ∀ access ∈ (verify (encode source)).accesses, access.Sound
  outcome_chunks : (chunks (encode source)).outcome = .done ((Source.chunks source).map encode)
  outcome_findings : ∃ found, (findings (encode source)).outcome = .done found ∧
    (found.map fun f => (f.line, f.column, f.name)) =
      (occurrences source).map (fun o => (o.line, o.column, encode o.name)) ∧
    ∀ f ∈ found, f.InPlace (lines (encode source))
  outcome_verify : (verify (encode source)).outcome =
    ((Dialect.verify source).mapReason fun undeclared => encode undeclared.message)
  verify_ne_crashed : (verify (encode source)).outcome ≠ .crashed

theorem places_there (source : Text) : PlacesThere source := by
  have hchunks := outcome_chunks source
  have hfindings := outcome_findings source
  have hverify := outcome_verify_ne_crashed source
  exact {
    chunks_sound := Walk.sound_of_ne_crashed (by simp [hchunks])
    findings_sound := Walk.sound_of_ne_crashed (by simp [hfindings])
    verify_sound := Walk.sound_of_ne_crashed hverify
    outcome_chunks := hchunks
    outcome_findings := by
      refine ⟨_, hfindings, ?_, fun f hf => ?_⟩
      · simp [Function.comp_def]
      · obtain ⟨o, ho, rfl⟩ := List.mem_map.1 hf
        exact inPlace_findingIn ho
    outcome_verify := outcome_verify source
    verify_ne_crashed := hverify }

end Bytes

end IrConvert
