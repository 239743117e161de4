import IrConvert.Conversion
import IrConvert.Proofs.Source.Division
import Mathlib.Data.List.Basic

namespace IrConvert

namespace Outcome

variable {ε ε' α β : Type}

@[simp] theorem map_done (f : α → β) (value : α) :
    f <$> (done value : Outcome ε α) = done (f value) := rfl

@[simp] theorem map_failed (f : α → β) (reason : ε) :
    f <$> (failed reason : Outcome ε α) = failed reason := rfl

@[simp] theorem map_crashed (f : α → β) : f <$> (crashed : Outcome ε α) = crashed := rfl

@[simp] theorem done_bind (value : α) (next : α → Outcome ε β) : done value >>= next = next value :=
  rfl

@[simp] theorem failed_bind (reason : ε) (next : α → Outcome ε β) :
    failed reason >>= next = failed reason := rfl

@[simp] theorem crashed_bind (next : α → Outcome ε β) : crashed >>= next = crashed := rfl

def isFailed : Outcome ε α → Bool
  | failed _ => true
  | _ => false

end Outcome

namespace Run

variable {α β : Type}

theorem map_eq (f : α → β) (run : Run α) : f <$> run = ⟨run.log, f <$> run.outcome⟩ := by
  obtain ⟨log, outcome⟩ := run
  cases outcome with
  | done value =>
    change Run.mk (log ++ []) (.done (f value)) = _
    rw [List.append_nil]
    rfl
  | failed failure => rfl
  | crashed => rfl

theorem emit_bind (event : Event) (next : Unit → Run β) :
    Run.emit event >>= next = ⟨event :: (next ()).log, (next ()).outcome⟩ := rfl

theorem outcome_bind (run : Run α) (next : α → Run β) :
    (run >>= next).outcome = run.outcome >>= fun value => (next value).outcome := by
  obtain ⟨log, outcome⟩ := run
  cases outcome <;> rfl

theorem log_bind_of_quiet (run : Run α) {next : α → Run β} (h : ∀ value, (next value).log = []) :
    (run >>= next).log = run.log := by
  obtain ⟨log, outcome⟩ := run
  cases outcome with
  | done value =>
    change log ++ (next value).log = log
    rw [h, List.append_nil]
  | failed failure => rfl
  | crashed => rfl

end Run

namespace Converter

variable (converter : Converter)

def chunkLog (chunk : Text) (index : ℕ) : List Event :=
  (converter.convert chunk).log ++
    match (converter.convert chunk).outcome with
    | .failed failure => [.chunkFailed index failure]
    | _ => []

def output? (chunk : Text) : Option Text :=
  match (converter.convert chunk).outcome with
  | .done output => some output.withNewline
  | _ => none

theorem log_attempt (index : ℕ) (chunk : Text) :
    (converter.attempt index chunk).log = converter.chunkLog chunk index := by
  rw [attempt, chunkLog]
  cases houtcome : (converter.convert chunk).outcome <;> simp

theorem attempt_eq {chunk : Text} (h : (converter.convert chunk).outcome ≠ .crashed)
    (index : ℕ) :
    converter.attempt index chunk =
      ⟨converter.chunkLog chunk index, .done (converter.output? chunk)⟩ := by
  apply Run.ext (converter.log_attempt index chunk)
  rw [attempt, output?]
  cases hout : (converter.convert chunk).outcome with
  | done output => rfl
  | failed failure => rfl
  | crashed => exact absurd hout h

theorem attempt_crashed {chunk : Text} (h : (converter.convert chunk).outcome = .crashed)
    (index : ℕ) :
    converter.attempt index chunk = ⟨converter.chunkLog chunk index, .crashed⟩ := by
  apply Run.ext (converter.log_attempt index chunk)
  rw [attempt, h]

/-- The chunks up to the first one on which the converter crashes. -/
def reached : List Text → List Text
  | [] => []
  | chunk :: others =>
    match (converter.convert chunk).outcome with
    | .crashed => [chunk]
    | _ => chunk :: reached others

theorem reached_cons_of_crashed {chunk : Text} (h : (converter.convert chunk).outcome = .crashed)
    (others : List Text) : converter.reached (chunk :: others) = [chunk] := by
  rw [reached, h]

theorem reached_cons {chunk : Text} (h : (converter.convert chunk).outcome ≠ .crashed)
    (others : List Text) :
    converter.reached (chunk :: others) = chunk :: converter.reached others := by
  rw [reached]
  split
  · next hcrashed => exact absurd hcrashed h
  · rfl

theorem isPrefix_reached (chunks : List Text) : converter.reached chunks <+: chunks := by
  induction chunks with
  | nil => exact List.prefix_rfl
  | cons chunk chunks ih =>
    by_cases hcrash : (converter.convert chunk).outcome = .crashed
    · rw [converter.reached_cons_of_crashed hcrash]
      exact ⟨chunks, rfl⟩
    · rw [converter.reached_cons hcrash, List.cons_prefix_cons]
      exact ⟨rfl, ih⟩

theorem reached_eq {chunks : List Text}
    (h : ∀ chunk ∈ chunks, (converter.convert chunk).outcome ≠ .crashed) :
    converter.reached chunks = chunks := by
  induction chunks with
  | nil => rfl
  | cons chunk chunks ih =>
    rw [converter.reached_cons (h chunk List.mem_cons_self),
      ih fun c hc => h c (List.mem_cons_of_mem chunk hc)]

theorem log_attemptEach (index : ℕ) (chunks : List Text) :
    (converter.attemptEach index chunks).log =
      ((converter.reached chunks).zipIdx index).flatMap fun p => converter.chunkLog p.1 p.2 := by
  induction chunks generalizing index with
  | nil => rfl
  | cons chunk chunks ih =>
    rw [attemptEach]
    by_cases hcrash : (converter.convert chunk).outcome = .crashed
    · rw [converter.attempt_crashed hcrash, converter.reached_cons_of_crashed hcrash,
        List.zipIdx_singleton, List.flatMap_singleton]
      rfl
    · -- a chunk that failed is an attempt that is done, so the others follow it all the same
      rw [converter.attempt_eq hcrash, converter.reached_cons hcrash, Run.bind_of_done _ rfl,
        Run.log_bind_of_quiet _ fun outputs => rfl, ih, List.zipIdx_cons, List.flatMap_cons]

theorem outcome_attemptEach {chunks : List Text}
    (h : ∀ chunk ∈ chunks, (converter.convert chunk).outcome ≠ .crashed) (index : ℕ) :
    (converter.attemptEach index chunks).outcome = .done (chunks.map converter.output?) := by
  induction chunks generalizing index with
  | nil => rfl
  | cons chunk chunks ih =>
    rw [attemptEach, converter.attempt_eq (h chunk List.mem_cons_self), Run.outcome_bind,
      Outcome.done_bind, Run.outcome_bind,
      ih (fun c hc => h c (List.mem_cons_of_mem chunk hc)) (index + 1), Outcome.done_bind]
    rfl

def failedCount (chunks : List Text) : ℕ :=
  chunks.countP fun chunk => (converter.output? chunk).isNone

def ending (chunks : List Text) : Outcome Failure Text :=
  if chunks = [] then .failed .noChunks
  else if converter.failedCount chunks = 0 then
    .done (Source.joinChunks (chunks.filterMap converter.output?))
  else .failed (.chunksFailed (converter.failedCount chunks) chunks.length)

theorem log_convertChunks (source : Text) :
    (converter.convertChunks source).log =
      .split (Source.contents source).length ::
        (converter.reached (Source.contents source)).zipIdx.flatMap fun p =>
          converter.chunkLog p.1 p.2 := by
  rw [convertChunks, Run.emit_bind]
  apply congrArg (List.cons _)
  split
  · next hempty =>
    rw [List.isEmpty_iff.1 hempty]
    rfl
  · rw [Run.log_bind_of_quiet, converter.log_attemptEach]
    intro outputs
    dsimp only
    split <;> rfl

theorem outcome_convertChunks {source : Text}
    (h : ∀ chunk ∈ Source.contents source, (converter.convert chunk).outcome ≠ .crashed) :
    (converter.convertChunks source).outcome = converter.ending (Source.contents source) := by
  have hcount : ((Source.contents source).map converter.output?).countP (·.isNone) =
      converter.failedCount (Source.contents source) := by
    rw [List.countP_map]
    rfl
  rw [convertChunks, Run.emit_bind, ending]
  rcases eq_or_ne (Source.contents source) [] with hnil | hne
  · rw [hnil]
    rfl
  · rw [if_neg hne, if_neg (by simpa using hne), Run.outcome_bind, converter.outcome_attemptEach h,
      Outcome.done_bind]
    dsimp only
    rw [hcount, List.filterMap_map]
    split <;> rfl

/-- A crash is not held back as a failure is. -/
theorem attemptEach_crashed {chunks : List Text}
    (h : ∃ chunk ∈ chunks, (converter.convert chunk).outcome = .crashed) (index : ℕ) :
    (converter.attemptEach index chunks).outcome = .crashed := by
  induction chunks generalizing index with
  | nil =>
    obtain ⟨chunk, hc, -⟩ := h
    cases hc
  | cons chunk chunks ih =>
    rw [attemptEach, Run.outcome_bind]
    by_cases hcrash : (converter.convert chunk).outcome = .crashed
    · rw [converter.attempt_crashed hcrash, Outcome.crashed_bind]
    · have hrest : ∃ c ∈ chunks, (converter.convert c).outcome = .crashed := by
        simpa [hcrash] using h
      rw [converter.attempt_eq hcrash, Outcome.done_bind, Run.outcome_bind, ih hrest,
        Outcome.crashed_bind]

theorem convertChunks_crashed {source : Text}
    (h : ∃ chunk ∈ Source.contents source, (converter.convert chunk).outcome = .crashed) :
    (converter.convertChunks source).outcome = .crashed := by
  have hne : (Source.contents source).isEmpty = false := by
    obtain ⟨chunk, hc, -⟩ := h
    exact List.isEmpty_eq_false_iff.2 (List.ne_nil_of_mem hc)
  rw [convertChunks, Run.emit_bind, hne, if_neg Bool.false_ne_true, Run.outcome_bind,
    converter.attemptEach_crashed h, Outcome.crashed_bind]

theorem ending_ne_crashed (chunks : List Text) : converter.ending chunks ≠ .crashed := by
  unfold ending
  split
  · nofun
  · split <;> nofun

section Congruence

variable {converter} {other : Converter}
  (h : ∀ chunk, (other.convert chunk).outcome = (converter.convert chunk).outcome)

include h

theorem reached_congr (chunks : List Text) : other.reached chunks = converter.reached chunks := by
  induction chunks with
  | nil => rfl
  | cons chunk chunks ih => rw [reached, reached, h, ih]

theorem ending_congr (chunks : List Text) : other.ending chunks = converter.ending chunks := by
  have hsame : other.output? = converter.output? := by
    funext chunk
    rw [output?, output?, h]
  rw [ending, ending, failedCount, failedCount, hsame]

end Congruence

end Converter

namespace Options

def split (options : Options) : Options := { options with splitInput := true }

def whole (options : Options) : Options := { options with splitInput := false }

end Options

namespace Registry

variable {registry : Registry} {options : Options} {converter : Converter}

theorem name_of_get? {name : Text} (h : registry.get? name = some converter) :
    converter.name = name := by
  have hfound := List.find?_some h
  exact eq_of_beq hfound

theorem convert_whole_eq (h : registry.get? options.converter = some converter) (source : Text) :
    registry.convert options.whole source =
      ⟨.converting options.converter :: (converter.convert source).log,
        Text.withNewline <$> (converter.convert source).outcome⟩ := by
  rw [convert, Options.whole, h]
  dsimp only
  rw [Run.emit_bind, if_neg Bool.false_ne_true, Converter.convertWhole, Run.map_eq, name_of_get? h]

/-- The log of a conversion chunk by chunk, also of one that ends in a crash. -/
theorem log_convert_split (h : registry.get? options.converter = some converter) (source : Text) :
    (registry.convert options.split source).log =
      .converting options.converter :: .split (Source.contents source).length ::
        (converter.reached (Source.contents source)).zipIdx.flatMap fun p =>
          converter.chunkLog p.1 p.2 := by
  rw [convert, Options.split, h]
  dsimp only
  rw [Run.emit_bind, if_pos rfl, converter.log_convertChunks, name_of_get? h]

theorem outcome_convert_split (h : registry.get? options.converter = some converter)
    {source : Text}
    (hcrash : ∀ chunk ∈ Source.contents source, (converter.convert chunk).outcome ≠ .crashed) :
    (registry.convert options.split source).outcome =
      converter.ending (Source.contents source) := by
  rw [convert, Options.split, h]
  dsimp only
  rw [Run.emit_bind, if_pos rfl, converter.outcome_convertChunks hcrash]

theorem convert_split_eq (h : registry.get? options.converter = some converter) {source : Text}
    (hcrash : ∀ chunk ∈ Source.contents source, (converter.convert chunk).outcome ≠ .crashed) :
    registry.convert options.split source =
      ⟨.converting options.converter :: .split (Source.contents source).length ::
          (Source.contents source).zipIdx.flatMap fun p => converter.chunkLog p.1 p.2,
        converter.ending (Source.contents source)⟩ := by
  apply Run.ext
  · rw [log_convert_split h, converter.reached_eq hcrash]
  · exact outcome_convert_split h hcrash

theorem convert_split_crashed_iff (h : registry.get? options.converter = some converter)
    (source : Text) :
    (registry.convert options.split source).outcome = .crashed ↔
      ∃ chunk ∈ Source.contents source, (converter.convert chunk).outcome = .crashed := by
  constructor
  · intro hcrashed
    by_contra! hcrash
    rw [outcome_convert_split h hcrash] at hcrashed
    exact converter.ending_ne_crashed _ hcrashed
  · intro hcrash
    rw [convert, Options.split, h]
    dsimp only
    rw [Run.emit_bind, if_pos rfl]
    exact converter.convertChunks_crashed hcrash

/-- What the conversions of the chunks write to the log has no part in how they end. -/
theorem outcome_convert_split_congr {other : Registry} {converter' : Converter}
    (hget : registry.get? options.converter = some converter)
    (hother : other.get? options.converter = some converter')
    (h : ∀ chunk, (converter'.convert chunk).outcome = (converter.convert chunk).outcome)
    (source : Text) :
    (other.convert options.split source).outcome =
      (registry.convert options.split source).outcome := by
  by_cases hcrash : ∃ chunk ∈ Source.contents source, (converter.convert chunk).outcome = .crashed
  · have hcrash' : ∃ chunk ∈ Source.contents source,
        (converter'.convert chunk).outcome = .crashed := by simpa only [h] using hcrash
    rw [(convert_split_crashed_iff hget source).2 hcrash,
      (convert_split_crashed_iff hother source).2 hcrash']
  · push Not at hcrash
    have hcrash' : ∀ chunk ∈ Source.contents source,
        (converter'.convert chunk).outcome ≠ .crashed := by simpa only [h] using hcrash
    rw [outcome_convert_split hget hcrash, outcome_convert_split hother hcrash',
      Converter.ending_congr h]

theorem convert_ne_crashed_of_split (h : registry.get? options.converter = some converter)
    {source : Text} (hrun : (registry.convert options.split source).outcome ≠ .crashed) :
    ∀ chunk ∈ Source.contents source, (converter.convert chunk).outcome ≠ .crashed :=
  fun chunk hchunk hcrashed =>
    hrun ((convert_split_crashed_iff h source).2 ⟨chunk, hchunk, hcrashed⟩)

theorem outcome_convert_split_of_ne_crashed
    (h : registry.get? options.converter = some converter) {source : Text}
    (hrun : (registry.convert options.split source).outcome ≠ .crashed) :
    (registry.convert options.split source).outcome =
      converter.ending (Source.contents source) :=
  outcome_convert_split h (convert_ne_crashed_of_split h hrun)

end Registry

namespace Converter

variable {converter : Converter}

def answer (converter : Converter) (chunk : Text) : Outcome Failure Text :=
  Text.withNewline <$> (converter.convert chunk).outcome

theorem answer_eq_done_iff {chunk closed : Text} :
    converter.answer chunk = .done closed ↔
      ∃ output, (converter.convert chunk).outcome = .done output ∧ output.withNewline = closed := by
  rw [answer]
  cases (converter.convert chunk).outcome <;> simp

theorem output?_eq_some_iff (chunk output : Text) :
    converter.output? chunk = some output ↔ converter.answer chunk = .done output := by
  unfold output? answer
  cases (converter.convert chunk).outcome <;> simp

theorem isNone_output? {chunk : Text} (h : (converter.convert chunk).outcome ≠ .crashed) :
    (converter.output? chunk).isNone = (converter.answer chunk).isFailed := by
  unfold output? answer
  cases hout : (converter.convert chunk).outcome with
  | done output => rfl
  | failed failure => rfl
  | crashed => exact absurd hout h

theorem failedCount_eq {chunks : List Text}
    (h : ∀ chunk ∈ chunks, (converter.convert chunk).outcome ≠ .crashed) :
    converter.failedCount chunks =
      chunks.countP fun chunk => (converter.answer chunk).isFailed := by
  unfold failedCount
  exact List.countP_congr fun chunk hc => by rw [isNone_output? (h chunk hc)]

theorem exists_answer {chunks outputs : List Text} {chunk : Text}
    (h : chunks.map converter.answer = outputs.map .done) (hchunk : chunk ∈ chunks) :
    ∃ output, converter.answer chunk = .done output := by
  have hmem : converter.answer chunk ∈ outputs.map .done := by
    rw [← h]
    exact List.mem_map_of_mem hchunk
  obtain ⟨output, -, hout⟩ := List.mem_map.1 hmem
  exact ⟨output, hout.symm⟩

theorem failedCount_eq_zero_iff {chunks : List Text} :
    converter.failedCount chunks = 0 ↔
      ∃ outputs : List Text, chunks.map converter.answer = outputs.map .done := by
  rw [failedCount, List.countP_eq_zero]
  constructor
  · intro h
    refine ⟨chunks.filterMap converter.output?, ?_⟩
    induction chunks with
    | nil => rfl
    | cons chunk chunks ih =>
      obtain ⟨output, hout⟩ : ∃ output, converter.output? chunk = some output := by
        have hsome := h chunk List.mem_cons_self
        exact Option.ne_none_iff_exists'.1 (by simpa using hsome)
      rw [List.map_cons, List.filterMap_cons_some hout, List.map_cons,
        (output?_eq_some_iff chunk output).1 hout,
        ih fun c hc => h c (List.mem_cons_of_mem chunk hc)]
  · intro h chunk hc hnone
    obtain ⟨outputs, he⟩ := h
    obtain ⟨output, hout⟩ := exists_answer he hc
    rw [(output?_eq_some_iff chunk output).2 hout] at hnone
    cases hnone

theorem filterMap_output? {chunks outputs : List Text}
    (h : chunks.map converter.answer = outputs.map .done) :
    chunks.filterMap converter.output? = outputs := by
  induction chunks generalizing outputs with
  | nil =>
    rw [List.map_nil] at h
    exact (List.map_eq_nil_iff.1 h.symm).symm
  | cons chunk chunks ih =>
    cases outputs with
    | nil => cases h
    | cons output outputs =>
      obtain ⟨hout, hrest⟩ := List.cons.inj h
      rw [List.filterMap_cons_some ((output?_eq_some_iff chunk output).2 hout), ih hrest]

theorem ending_eq_done_iff (chunks : List Text) (output : Text) :
    converter.ending chunks = .done output ↔ chunks ≠ [] ∧
      ∃ outputs : List Text, chunks.map converter.answer = outputs.map .done ∧
        output = Source.joinChunks outputs := by
  unfold ending
  constructor
  · intro h
    split at h
    · cases h
    · next hne =>
      split at h
      · next hzero =>
        obtain ⟨outputs, he⟩ := failedCount_eq_zero_iff.1 hzero
        rw [filterMap_output? he] at h
        exact ⟨hne, outputs, he, (Outcome.done.inj h).symm⟩
      · cases h
  · intro h
    obtain ⟨hne, outputs, he, rfl⟩ := h
    rw [if_neg hne, if_pos (failedCount_eq_zero_iff.2 ⟨outputs, he⟩), filterMap_output? he]

theorem ending_eq_failed {chunks : List Text} (hne : chunks ≠ [])
    (h : ∀ chunk ∈ chunks, (converter.convert chunk).outcome ≠ .crashed)
    (hfailed : ∃ chunk ∈ chunks, ∀ output, converter.answer chunk ≠ .done output) :
    1 ≤ (chunks.countP fun chunk => (converter.answer chunk).isFailed) ∧
      converter.ending chunks = .failed (.chunksFailed
        (chunks.countP fun chunk => (converter.answer chunk).isFailed) chunks.length) := by
  have hzero : converter.failedCount chunks ≠ 0 := by
    intro hz
    obtain ⟨outputs, he⟩ := failedCount_eq_zero_iff.1 hz
    obtain ⟨chunk, hc, hout⟩ := hfailed
    obtain ⟨output, heq⟩ := exists_answer he hc
    exact hout output heq
  rw [← failedCount_eq h]
  refine ⟨by omega, ?_⟩
  rw [ending, if_neg hne, if_neg hzero]

/-- Only the message about the number of failed chunks ends as it does. -/
theorem message_ending_eq_iff (chunks : List Text) :
    (converter.ending chunks).mapReason Failure.message =
      .failed "Input does not contain any chunks".toList ↔ chunks = [] := by
  constructor
  · intro h
    by_contra hne
    rw [ending, if_neg hne] at h
    split at h
    · cases h
    · -- the message about failed chunks does not end in an `s`
      have hlast := congrArg List.getLast? (Outcome.failed.inj h)
      simp [Failure.message, Failure.causes, Text.joinWith, List.getLast?_append,
        List.getLast?_cons] at hlast
  · intro h
    rw [ending, if_pos h]
    rfl

end Converter

namespace Converter

/-- The same converter, which first writes to the log what it is given. -/
def announcing (mark : Text → Event) (converter : Converter) : Converter :=
  { converter with
    convert := fun source => do
      Run.emit (mark source)
      converter.convert source }

variable (mark : Text → Event) (converter : Converter)

theorem chunkLog_announcing (chunk : Text) (index : ℕ) :
    (converter.announcing mark).chunkLog chunk index =
      mark chunk :: converter.chunkLog chunk index := rfl

end Converter

namespace Registry

def announcing (mark : Text → Event) (registry : Registry) : Registry where
  converters := registry.converters.map (·.announcing mark)
  sorted := by
    rw [Sorted, List.pairwise_map]
    exact registry.sorted
  acceptable x hx := by
    obtain ⟨converter, hc, rfl⟩ := List.mem_map.1 hx
    exact registry.acceptable converter hc

end Registry

def Event.shown (event : Event) : Level × Text := (event.level, event.message)

namespace Registry

def answer (registry : Registry) (options : Options) (source : Text) : Outcome Failure Text :=
  (registry.convert options.whole source).outcome

/-- How many chunks of a source fail, each converted as a whole. -/
def failedIn (registry : Registry) (options : Options) (source : Text) : ℕ :=
  (Source.contents source).countP fun chunk => (registry.answer options chunk).isFailed

theorem answer_eq {registry : Registry} {options : Options} {converter : Converter}
    (h : registry.get? options.converter = some converter) :
    registry.answer options = converter.answer := by
  funext chunk
  exact congrArg Run.outcome (convert_whole_eq h chunk)

end Registry

def refusingX : Converter where
  name := "pass"
  description := "Pass on what has no x"
  convert source :=
    if source.contains 'x' then Run.fail (.reported ["found x".toList]) else pure source

def refusingXOnly : Registry where
  converters := [refusingX]
  sorted := List.pairwise_singleton ..
  acceptable := List.forall_mem_singleton.2 (by decide)

end IrConvert
