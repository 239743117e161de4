import IrConvert.Proofs.Conversion.Split
import IrConvert.Proofs.Source.Blank
import IrConvert.Proofs.Text.Rows

namespace IrConvert

open Text (Closed FullLine)

namespace Event

def later (chunks : ℕ) : Event → Event
  | chunkFailed index failure => chunkFailed (index + chunks) failure
  | event => event

end Event

def errorsOf (log : List Event) : List Event := log.filter (·.level = .error)

theorem errorsOf_append (log more : List Event) :
    errorsOf (log ++ more) = errorsOf log ++ errorsOf more := List.filter_append ..

namespace Source

/-- A marker line of its own stands between the two. -/
def joined (text other : Text) : Text := text ++ (marker ++ ['\n'] ++ other)

theorem joinChunks_append {texts others : List Text} (h : texts ≠ []) (h' : others ≠ []) :
    joinChunks (texts ++ others) = joined (joinChunks texts) (joinChunks others) :=
  Text.joinWith_append (marker ++ ['\n']) h h'

theorem contents_joined {text : Text} (hclosed : Closed text) (other : Text) :
    contents (joined text other) = contents text ++ contents other :=
  contents_append_mark hclosed fullLine_marker_newline trim_marker_newline other

end Source

namespace Converter

variable (converter : Converter)

/-- The errors in the conversion of chunks of which the first has this index. -/
def errorsFrom (start : ℕ) (chunks : List Text) : List Event :=
  (chunks.zipIdx start).flatMap fun p => errorsOf (converter.chunkLog p.1 p.2)

theorem errorsFrom_append (start : ℕ) (chunks others : List Text) :
    converter.errorsFrom start (chunks ++ others) =
      converter.errorsFrom start chunks ++ converter.errorsFrom (start + chunks.length) others := by
  rw [errorsFrom, List.zipIdx_append, List.flatMap_append, errorsFrom, errorsFrom]

theorem errorsOf_flatMap_chunkLog (chunks : List (Text × ℕ)) :
    errorsOf (chunks.flatMap fun p => converter.chunkLog p.1 p.2) =
      chunks.flatMap fun p => errorsOf (converter.chunkLog p.1 p.2) := List.filter_flatMap ..

variable {converter}

/-- The only errors in the log of a chunk are its failure, if the converter itself logs none. -/
theorem errorsOf_chunkLog_later {chunk : Text}
    (hquiet : ∀ event ∈ (converter.convert chunk).log, event.level ≠ .error) (index chunks : ℕ) :
    errorsOf (converter.chunkLog chunk (index + chunks)) =
      (errorsOf (converter.chunkLog chunk index)).map (·.later chunks) := by
  have hown : errorsOf (converter.convert chunk).log = [] := by
    rw [errorsOf, List.filter_eq_nil_iff]
    exact fun event he => by simpa using hquiet event he
  rw [chunkLog, chunkLog, errorsOf_append, errorsOf_append, hown]
  cases (converter.convert chunk).outcome <;> rfl

theorem errorsFrom_later {chunks : List Text}
    (hquiet : ∀ chunk ∈ chunks, ∀ event ∈ (converter.convert chunk).log, event.level ≠ .error)
    (start before : ℕ) :
    converter.errorsFrom (start + before) chunks =
      (converter.errorsFrom start chunks).map (·.later before) := by
  induction chunks generalizing start with
  | nil => rfl
  | cons chunk chunks ih =>
    have hrest := ih (fun c hc => hquiet c (List.mem_cons_of_mem chunk hc)) (start + 1)
    rw [Nat.add_right_comm] at hrest
    have hchunk := errorsOf_chunkLog_later (hquiet chunk List.mem_cons_self) start before
    rw [errorsFrom, List.zipIdx_cons, List.flatMap_cons, hchunk, errorsFrom, List.zipIdx_cons,
      List.flatMap_cons, List.map_append]
    exact congrArg _ hrest

theorem ending_append {chunks others : List Text} {output output' : Text}
    (h : converter.ending chunks = .done output) (h' : converter.ending others = .done output') :
    converter.ending (chunks ++ others) = .done (Source.joined output output') := by
  obtain ⟨hne, outputs, hanswers, rfl⟩ := (ending_eq_done_iff chunks output).1 h
  obtain ⟨hne', outputs', hanswers', rfl⟩ := (ending_eq_done_iff others output').1 h'
  have houtputs : outputs ≠ [] := by
    intro hnil
    rw [hnil, List.map_nil] at hanswers
    exact hne (List.map_eq_nil_iff.1 hanswers)
  have houtputs' : outputs' ≠ [] := by
    intro hnil
    rw [hnil, List.map_nil] at hanswers'
    exact hne' (List.map_eq_nil_iff.1 hanswers')
  refine (ending_eq_done_iff _ _).2 ⟨List.append_ne_nil_of_left_ne_nil hne others,
    outputs ++ outputs', ?_, (Source.joinChunks_append houtputs houtputs').symm⟩
  rw [List.map_append, List.map_append, hanswers, hanswers']

theorem ending_of_failedCount {chunks : List Text} (hne : chunks ≠ []) :
    ((converter.ending chunks).isFailed = true ↔ 0 < converter.failedCount chunks) ∧
    (0 < converter.failedCount chunks → converter.ending chunks =
      .failed (.chunksFailed (converter.failedCount chunks) chunks.length)) := by
  rw [ending, if_neg hne]
  by_cases hzero : converter.failedCount chunks = 0
  · simp [hzero, Outcome.isFailed]
  · simp [hzero, Outcome.isFailed, Nat.pos_iff_ne_zero]

end Converter

namespace Registry

/-- Only the chunks that are not blank count. -/
theorem convert_split_congr {source source' : Text}
    (h : Source.contents source = Source.contents source') (registry : Registry)
    (options : Options) :
    registry.convert options.split source = registry.convert options.split source' := by
  have hchunks (converter : Converter) :
      converter.convertChunks source = converter.convertChunks source' := by
    rw [Converter.convertChunks, h, Converter.convertChunks]
  rw [convert, convert]
  cases registry.get? options.split.converter with
  | none => rfl
  | some converter =>
    dsimp only
    rw [hchunks]
    rfl

variable {registry : Registry} {options : Options} {converter : Converter}

/-- The failures are those of the same conversions one by one. -/
theorem failedCount_append (h : registry.get? options.converter = some converter)
    {text other : Text} (hcrash : ∀ chunk ∈ Source.contents text ++ Source.contents other,
      (converter.convert chunk).outcome ≠ .crashed) :
    converter.failedCount (Source.contents text ++ Source.contents other) =
      registry.failedIn options text + registry.failedIn options other := by
  rw [Converter.failedCount_eq hcrash, List.countP_append, failedIn, failedIn, answer_eq h]

theorem errorsOf_convert_split (h : registry.get? options.converter = some converter)
    {source : Text}
    (hcrash : ∀ chunk ∈ Source.contents source, (converter.convert chunk).outcome ≠ .crashed) :
    errorsOf (registry.convert options.split source).log =
      converter.errorsFrom 0 (Source.contents source) := by
  rw [convert_split_eq h hcrash, Converter.errorsFrom, ← Converter.errorsOf_flatMap_chunkLog]
  rfl

end Registry

/-- To put a marker line between two sources is to convert the one and then the other. Of chunks
that report no errors themselves, the errors are those of the two sources with the second counted
on; whatever a converter reports, each chunk keeps it. -/
structure SplitJoined (registry : Registry) (options : Options) (converter : Converter)
    (text other : Text) : Prop where
  done : ∀ output output', (registry.convert options.split text).outcome = .done output →
    (registry.convert options.split other).outcome = .done output' →
    (registry.convert options.split (Source.joined text other)).outcome =
      .done (Source.joined output output')
  of_blank_left : Source.isBlank text = true →
    registry.convert options.split (Source.joined text other) =
      registry.convert options.split other
  of_blank_right : Source.isBlank other = true →
    registry.convert options.split (Source.joined text other) =
      registry.convert options.split text
  blank_between : ∀ blank, Closed blank → Source.isBlank blank = true →
    registry.convert options.split (Source.joined text (Source.joined blank other)) =
      registry.convert options.split (Source.joined text other)
  failed_iff : Source.isBlank text = false → Source.isBlank other = false →
    ((registry.convert options.split (Source.joined text other)).outcome.isFailed = true ↔
      0 < registry.failedIn options text + registry.failedIn options other)
  message_eq : Source.isBlank text = false → Source.isBlank other = false →
    0 < registry.failedIn options text + registry.failedIn options other →
    (registry.convert options.split (Source.joined text other)).outcome.mapReason
        Failure.message = .failed
      (Text.ofNat (registry.failedIn options text + registry.failedIn options other) ++
        " of ".toList ++
        Text.ofNat ((Source.contents text).length + (Source.contents other).length) ++
        " chunks failed to translate".toList)
  errors_right : errorsOf (registry.convert options.split other).log =
    converter.errorsFrom 0 (Source.contents other)
  errors_eq : errorsOf (registry.convert options.split (Source.joined text other)).log =
    errorsOf (registry.convert options.split text).log ++
      converter.errorsFrom (Source.contents text).length (Source.contents other)
  errors_later :
    (∀ chunk ∈ Source.contents other, ∀ event ∈ (converter.convert chunk).log,
      event.level ≠ .error) →
    errorsOf (registry.convert options.split (Source.joined text other)).log =
      errorsOf (registry.convert options.split text).log ++
        (errorsOf (registry.convert options.split other).log).map
          (·.later (Source.contents text).length)

theorem convert_split_joined {registry : Registry} {options : Options} {converter : Converter}
    {text other : Text} (hclosed : Closed text)
    (hget : registry.get? options.converter = some converter)
    (hcrash : ∀ chunk ∈ Source.contents text ++ Source.contents other,
      (converter.convert chunk).outcome ≠ .crashed) :
    SplitJoined registry options converter text other := by
  have hseam := Source.contents_joined hclosed other
  have htext := fun chunk hc => hcrash chunk (List.mem_append_left (Source.contents other) hc)
  have hother := fun chunk hc => hcrash chunk (List.mem_append_right (Source.contents text) hc)
  have hcrash' := hcrash
  rw [← hseam] at hcrash'
  have hjoined : (registry.convert options.split (Source.joined text other)).outcome =
      converter.ending (Source.contents text ++ Source.contents other) := by
    rw [Registry.outcome_convert_split hget hcrash', hseam]
  have herrors : errorsOf (registry.convert options.split (Source.joined text other)).log =
      errorsOf (registry.convert options.split text).log ++
        converter.errorsFrom (Source.contents text).length (Source.contents other) := by
    rw [Registry.errorsOf_convert_split hget hcrash', hseam, Converter.errorsFrom_append,
      Registry.errorsOf_convert_split hget htext, Nat.zero_add]
  have herrors' : errorsOf (registry.convert options.split other).log =
      converter.errorsFrom 0 (Source.contents other) :=
    Registry.errorsOf_convert_split hget hother
  have hfailed (hfull : Source.isBlank text = false) :=
    @Converter.ending_of_failedCount converter (Source.contents text ++ Source.contents other)
      (List.append_ne_nil_of_left_ne_nil (Source.contents_ne_nil hfull) _)
  rw [Registry.failedCount_append hget hcrash, ← hjoined] at hfailed
  exact {
    done := by
      intro output output' hout hout'
      rw [Registry.outcome_convert_split hget htext] at hout
      rw [Registry.outcome_convert_split hget hother] at hout'
      rw [hjoined]
      exact Converter.ending_append hout hout'
    of_blank_left := by
      intro hblank
      refine Registry.convert_split_congr ?_ registry options
      rw [hseam, (Source.contents_eq_nil_iff text).2 hblank, List.nil_append]
    of_blank_right := by
      intro hblank
      refine Registry.convert_split_congr ?_ registry options
      rw [hseam, (Source.contents_eq_nil_iff other).2 hblank, List.append_nil]
    blank_between := by
      intro blank hblankClosed hblank
      refine Registry.convert_split_congr ?_ registry options
      rw [Source.contents_joined hclosed, Source.contents_joined hblankClosed, hseam,
        (Source.contents_eq_nil_iff blank).2 hblank, List.nil_append]
    failed_iff := fun hfull _ => (hfailed hfull).1
    message_eq := by
      intro hfull _ hpos
      rw [(hfailed hfull).2 hpos, List.length_append]
      simp [Outcome.mapReason, Failure.message, Failure.causes, Text.joinWith]
    errors_right := herrors'
    errors_eq := herrors
    errors_later := by
      intro hquiet
      rw [herrors, herrors', ← Converter.errorsFrom_later hquiet, Nat.zero_add] }

/-- The second failing chunk is the third of all. -/
theorem convert_split_joined_at_failing_chunks :
    Closed "x\n".toList ∧ refusingXOnly.get? "pass".toList = some refusingX ∧
    (∀ chunk ∈ Source.contents "x\n".toList ++ Source.contents "a\n// -----\nx".toList,
      (refusingX.convert chunk).outcome ≠ .crashed) ∧
    (∀ chunk ∈ Source.contents "a\n// -----\nx".toList,
      ∀ event ∈ (refusingX.convert chunk).log, event.level ≠ .error) ∧
    (refusingXOnly.convert (Options.forConverter "pass".toList).split
      "x\n// -----\na\n// -----\nx".toList).outcome.mapReason Failure.message =
        .failed "2 of 3 chunks failed to translate".toList ∧
    errorsOf (refusingXOnly.convert (Options.forConverter "pass".toList).split
      "x\n// -----\na\n// -----\nx".toList).log =
        [.chunkFailed 0 (.reported ["found x".toList]),
          .chunkFailed 2 (.reported ["found x".toList])] := by
  have hclosed : Closed "x\n".toList := by decide
  have hcrash : ∀ chunk ∈ Source.contents "x\n".toList ++
      Source.contents "a\n// -----\nx".toList, (refusingX.convert chunk).outcome ≠ .crashed := by
    decide
  have hquiet : ∀ chunk ∈ Source.contents "a\n// -----\nx".toList,
      ∀ event ∈ (refusingX.convert chunk).log, event.level ≠ .error := by decide
  have hjoined := @convert_split_joined refusingXOnly (.forConverter "pass".toList) refusingX _ _
    hclosed rfl hcrash
  exact ⟨hclosed, rfl, hcrash, hquiet, hjoined.message_eq (by decide) (by decide) (by decide),
    hjoined.errors_later hquiet⟩

end IrConvert
