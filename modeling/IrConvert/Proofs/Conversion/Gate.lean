import IrConvert.Builtin
import IrConvert.Proofs.Conversion.Split
import IrConvert.Proofs.Source.Operations

namespace IrConvert

open Dialect (Occurrence occurrences verify)

section Gate

variable {source : Text}

theorem gate_of_isBlank (h : Source.isBlank source = true) :
    gate source = .failed .noOperations := if_pos h

theorem gate_of_not_isBlank (h : Source.isBlank source = false) :
    gate source = (verify source).mapReason .undeclared := by
  rw [gate, h, if_neg Bool.false_ne_true]

theorem isBlank_eq_false_of_verify_ne (h : verify source ≠ .done ()) :
    Source.isBlank source = false := by
  rw [← Bool.not_eq_true]
  intro hblank
  rw [Ne, Dialect.verify_eq_done_iff, Dialect.occurrences_of_isBlank hblank] at h
  exact h nofun

theorem gate_of_verify_failed {undeclared : Dialect.Undeclared}
    (h : verify source = .failed undeclared) : gate source = .failed (.undeclared undeclared) := by
  have hblank : Source.isBlank source = false := by
    apply isBlank_eq_false_of_verify_ne
    rw [h]
    nofun
  rw [gate_of_not_isBlank hblank, h]
  rfl

theorem gate_of_verify_done (hblank : Source.isBlank source = false)
    (h : verify source = .done ()) : gate source = .done () := by
  rw [gate_of_not_isBlank hblank, h]
  rfl

theorem verify_of_gate_done (h : gate source = .done ()) : verify source = .done () := by
  by_contra hne
  obtain ⟨undeclared, hfailed⟩ := Dialect.exists_failed_of_verify_ne hne
  rw [gate_of_verify_failed hfailed] at h
  cases h

/-- The gate decides on every source. -/
theorem gate_ne_crashed (source : Text) : gate source ≠ .crashed := by
  cases hblank : Source.isBlank source with
  | true =>
    rw [gate_of_isBlank hblank]
    nofun
  | false =>
    by_cases h : verify source = .done ()
    · rw [gate_of_verify_done hblank h]
      nofun
    · obtain ⟨undeclared, hfailed⟩ := Dialect.exists_failed_of_verify_ne h
      rw [gate_of_verify_failed hfailed]
      nofun

theorem eq_of_gate_failed {failure : Failure} (h : gate source = .failed failure) :
    failure = .noOperations ∨ ∃ undeclared, failure = .undeclared undeclared := by
  cases hblank : Source.isBlank source with
  | true =>
    rw [gate_of_isBlank hblank] at h
    exact .inl (Outcome.failed.inj h).symm
  | false =>
    rw [gate_of_not_isBlank hblank] at h
    cases hverify : verify source with
    | done value =>
      rw [hverify] at h
      cases h
    | failed undeclared =>
      rw [hverify] at h
      exact .inr ⟨undeclared, (Outcome.failed.inj h).symm⟩
    | crashed =>
      rw [hverify] at h
      cases h

end Gate

namespace Host

variable {Module : Type} (host : Host Module) (target : Ir.Target) {source : Text}

def convertRead (source : Text) : Run Text := do
  let module ← host.read source
  Run.emit (.runningPasses target.passes)
  host.write target module

theorem convert_of_gate_failed {failure : Failure} (h : gate source = .failed failure) :
    host.convert target source = ⟨[], .failed failure⟩ := by
  rw [convert, h]
  rfl

theorem convert_of_gate_done (h : gate source = .done ()) :
    host.convert target source = host.convertRead target source := by
  rw [convert, h, Run.bind_of_done _ rfl]
  rfl

/-- The same host, which first writes to the log what it is given to read. -/
def announcing (mark : Text → Event) (host : Host Module) : Host Module :=
  { host with
    read := fun source => do
      Run.emit (mark source)
      host.read source }

theorem convert_announcing (mark : Text → Event) (h : gate source = .done ()) :
    (host.announcing mark).convert target source =
      ⟨mark source :: (host.convert target source).log, (host.convert target source).outcome⟩ := by
  have hread : (host.announcing mark).convertRead target source =
      Run.emit (mark source) >>= fun _ => host.convertRead target source := by
    rw [convertRead, announcing, bind_assoc]
    rfl
  rw [convert_of_gate_done _ _ h, convert_of_gate_done _ _ h, hread, Run.emit_bind]

theorem outcome_convert_announcing (mark : Text → Event) (source : Text) :
    ((host.announcing mark).convert target source).outcome =
      (host.convert target source).outcome := by
  cases h : gate source with
  | done value => rw [host.convert_announcing target mark h]
  | failed failure =>
    rw [convert_of_gate_failed _ _ h, convert_of_gate_failed _ _ h]
  | crashed => exact absurd h (gate_ne_crashed source)

/-- It crashes when it reads the source or writes what it has read. -/
def CrashesOn (source : Text) : Prop :=
  (host.read source).outcome = .crashed ∨
    ∃ module, (host.read source).outcome = .done module ∧
      (host.write target module).outcome = .crashed

/-- Only the host can crash. -/
theorem convert_crashed_iff (source : Text) :
    (host.convert target source).outcome = .crashed ↔
      gate source = .done () ∧ host.CrashesOn target source := by
  cases h : gate source with
  | done value =>
    rw [host.convert_of_gate_done target h, convertRead, Run.outcome_bind, CrashesOn]
    cases (host.read source).outcome with
    | done module => simp [Run.emit_bind]
    | failed failure => simp
    | crashed => simp
  | failed failure => simp [host.convert_of_gate_failed target h]
  | crashed => exact absurd h (gate_ne_crashed source)

end Host

namespace Builtin

variable {Module : Type} (host : Host Module) (target : Ir.Target)

theorem convert_converter : (converter host target).convert = host.convert target := by
  cases target <;> rfl

theorem convert_of_verify_failed {source : Text} {undeclared : Dialect.Undeclared}
    (h : verify source = .failed undeclared) :
    (converter host target).convert source = ⟨[], .failed (.undeclared undeclared)⟩ := by
  rw [convert_converter, host.convert_of_gate_failed target (gate_of_verify_failed h)]

theorem outcome_convert_announcing (mark : Text → Event) (source : Text) :
    ((converter (host.announcing mark) target).convert source).outcome =
      ((converter host target).convert source).outcome := by
  rw [convert_converter, convert_converter, host.outcome_convert_announcing target mark]

theorem chunkLog_of_verify_failed {chunk : Text} {undeclared : Dialect.Undeclared}
    (h : verify chunk = .failed undeclared) (index : ℕ) :
    (converter host target).chunkLog chunk index =
      [.chunkFailed index (.undeclared undeclared)] := by
  rw [Converter.chunkLog, convert_of_verify_failed host target h, List.nil_append]

theorem chunkLog_announcing (mark : Text → Event) {chunk : Text}
    (hblank : Source.isBlank chunk = false) (index : ℕ) :
    (converter (host.announcing mark) target).chunkLog chunk index =
      (if verify chunk = .done () then [mark chunk] else []) ++
        (converter host target).chunkLog chunk index := by
  by_cases h : verify chunk = .done ()
  · have hgate := gate_of_verify_done hblank h
    rw [if_pos h, Converter.chunkLog, convert_converter, host.convert_announcing target mark hgate,
      Converter.chunkLog, convert_converter]
    rfl
  · obtain ⟨undeclared, hfailed⟩ := Dialect.exists_failed_of_verify_ne h
    rw [if_neg h, chunkLog_of_verify_failed _ _ hfailed, chunkLog_of_verify_failed _ _ hfailed,
      List.nil_append]

end Builtin

namespace Converter

variable {converter : Converter}

theorem isFailed_answer (chunk : Text) :
    (converter.answer chunk).isFailed = (converter.convert chunk).outcome.isFailed := by
  rw [answer]
  cases (converter.convert chunk).outcome <;> rfl

theorem ending_of_failed {chunks : List Text}
    (hcrash : ∀ chunk ∈ chunks, (converter.convert chunk).outcome ≠ .crashed)
    {chunk : Text} {failure : Failure} (hchunk : chunk ∈ chunks)
    (h : (converter.convert chunk).outcome = .failed failure) :
    1 ≤ (chunks.countP fun chunk => (converter.convert chunk).outcome.isFailed) ∧
      converter.ending chunks = .failed (.chunksFailed
        (chunks.countP fun chunk => (converter.convert chunk).outcome.isFailed) chunks.length) := by
  have hanswer : ∀ output, converter.answer chunk ≠ .done output := by
    intro output hdone
    rw [answer, h, Outcome.map_failed] at hdone
    cases hdone
  have hending := ending_eq_failed (List.ne_nil_of_mem hchunk) hcrash ⟨chunk, hchunk, hanswer⟩
  simpa only [isFailed_answer] using hending

end Converter

namespace Builtin

section Chunks

variable {Module : Type} {host : Host Module} {target : Ir.Target} {registry : Registry}
  {options : Options} {source : Text}
  (hget : registry.get? options.converter = some (converter host target))

include hget

/-- A conversion chunk by chunk crashes only by the host, and only on a chunk that is let
through. -/
theorem convert_split_crashed_iff :
    (registry.convert options.split source).outcome = .crashed ↔
      ∃ chunk ∈ Source.contents source, gate chunk = .done () ∧ host.CrashesOn target chunk := by
  rw [Registry.convert_split_crashed_iff hget]
  simp only [convert_converter, host.convert_crashed_iff]

theorem mem_log_of_verify_failed {index : ℕ} {chunk : Text} {undeclared : Dialect.Undeclared}
    (hindex : ((converter host target).reached (Source.contents source))[index]? = some chunk)
    (h : verify chunk = .failed undeclared) :
    .chunkFailed index (.undeclared undeclared) ∈
      (registry.convert options.split source).log := by
  rw [Registry.log_convert_split hget]
  refine List.mem_cons_of_mem _ (List.mem_cons_of_mem _ (List.mem_flatMap.2 ?_))
  refine ⟨(chunk, index), List.mem_zipIdx_iff_getElem?.2 hindex, ?_⟩
  rw [chunkLog_of_verify_failed host target h]
  exact List.mem_singleton_self _

/-- A chunk that is not let through is counted as failed, whatever the others are. -/
theorem outcome_of_verify_failed
    (hrun : (registry.convert options.split source).outcome ≠ .crashed) {chunk : Text}
    {undeclared : Dialect.Undeclared} (hchunk : chunk ∈ Source.contents source)
    (h : verify chunk = .failed undeclared) :
    1 ≤ ((Source.contents source).countP fun chunk =>
      ((converter host target).convert chunk).outcome.isFailed) ∧
    (registry.convert options.split source).outcome = .failed (.chunksFailed
      ((Source.contents source).countP fun chunk =>
        ((converter host target).convert chunk).outcome.isFailed)
      (Source.contents source).length) := by
  rw [Registry.outcome_convert_split_of_ne_crashed hget hrun]
  exact Converter.ending_of_failed (Registry.convert_ne_crashed_of_split hget hrun) hchunk
    (congrArg Run.outcome (convert_of_verify_failed host target h))

/-- The host is given each chunk that is reached and let through, once and in its turn. -/
theorem convert_split_announcing {other : Registry} {mark : Text → Event}
    (hother : other.get? options.converter = some (converter (host.announcing mark) target)) :
    other.convert options.split source =
      ⟨.converting options.converter :: .split (Source.contents source).length ::
          ((converter host target).reached (Source.contents source)).zipIdx.flatMap fun p =>
            (if verify p.1 = .done () then [mark p.1] else []) ++
              (converter host target).chunkLog p.1 p.2,
        (registry.convert options.split source).outcome⟩ := by
  have hsame := outcome_convert_announcing host target mark
  apply Run.ext
  · rw [Registry.log_convert_split hother, Converter.reached_congr hsame]
    congr 2
    refine List.flatMap_congr fun p hp => ?_
    have hcontent := ((converter host target).isPrefix_reached _).subset
      (List.fst_mem_of_mem_zipIdx hp)
    exact chunkLog_announcing host target mark (Source.isBlank_of_mem_contents hcontent) p.2
  · exact Registry.outcome_convert_split_congr hget hother hsame source

end Chunks

/-- How a conversion chunk by chunk goes with the gate in front of the host. The chunks that are
reached are all of them, unless the host crashes on one that is let through. -/
structure GatedChunks {Module : Type} (host : Host Module) (target : Ir.Target)
    (registry : Registry) (options : Options) (source : Text) : Prop where
  crashed_iff : (registry.convert options.split source).outcome = .crashed ↔
    ∃ chunk ∈ Source.contents source, gate chunk = .done () ∧ host.CrashesOn target chunk
  reached_eq : (registry.convert options.split source).outcome ≠ .crashed →
    (converter host target).reached (Source.contents source) = Source.contents source
  logged : ∀ (index : ℕ) (chunk : Text) (undeclared : Dialect.Undeclared),
    ((converter host target).reached (Source.contents source))[index]? = some chunk →
    verify chunk = .failed undeclared →
    .chunkFailed index (.undeclared undeclared) ∈ (registry.convert options.split source).log
  refused : (registry.convert options.split source).outcome ≠ .crashed →
    ∀ (index : ℕ) (chunk : Text), (Source.contents source)[index]? = some chunk →
      verify chunk ≠ .done () →
      ∃ undeclared, verify chunk = .failed undeclared ∧
        (converter host target).convert chunk = ⟨[], .failed (.undeclared undeclared)⟩ ∧
        .chunkFailed index (.undeclared undeclared) ∈
          (registry.convert options.split source).log ∧
        (registry.convert options.split source).outcome = .failed (.chunksFailed
          ((Source.contents source).countP fun chunk =>
            ((converter host target).convert chunk).outcome.isFailed)
          (Source.contents source).length)
  given : ∀ (mark : Text → Event) (other : Registry),
    other.get? options.converter = some (converter (host.announcing mark) target) →
    other.convert options.split source =
      ⟨.converting options.converter :: .split (Source.contents source).length ::
          ((converter host target).reached (Source.contents source)).zipIdx.flatMap fun p =>
            (if verify p.1 = .done () then [mark p.1] else []) ++
              (converter host target).chunkLog p.1 p.2,
        (registry.convert options.split source).outcome⟩

theorem gatedChunks {Module : Type} {host : Host Module} {target : Ir.Target}
    {registry : Registry} {options : Options}
    (hget : registry.get? options.converter = some (converter host target)) (source : Text) :
    GatedChunks host target registry options source where
  crashed_iff := convert_split_crashed_iff hget
  reached_eq hrun :=
    (converter host target).reached_eq (Registry.convert_ne_crashed_of_split hget hrun)
  logged _ _ _ := mem_log_of_verify_failed hget
  refused hrun index chunk hindex hverify := by
    obtain ⟨undeclared, hfailed⟩ := Dialect.exists_failed_of_verify_ne hverify
    have hreached :=
      (converter host target).reached_eq (Registry.convert_ne_crashed_of_split hget hrun)
    refine ⟨undeclared, hfailed, convert_of_verify_failed host target hfailed, ?_,
      (outcome_of_verify_failed hget hrun (List.mem_of_getElem? hindex) hfailed).2⟩
    rw [← hreached] at hindex
    exact mem_log_of_verify_failed hget hindex hfailed
  given _ _ hother := convert_split_announcing hget hother

end Builtin

/-- A source that is blank or has an undeclared operation is refused without the host, for every
target with the same words; any other one is given to the host once, as it is. So it is with each
chunk that is converted for itself, and no host can do anything about a chunk that is kept from
it. -/
theorem gate_keeps_undeclared {Module : Type} (host : Host Module) (target : Ir.Target)
    (source : Text) :
    let converter := Builtin.converter host target
    let announcing := fun mark => Builtin.converter (host.announcing mark) target
    (Source.isBlank source = true → occurrences source = [] ∧
      converter.convert source = ⟨[], .failed .noOperations⟩ ∧
      Failure.message .noOperations = "Input does not contain any operations".toList) ∧
    (∀ before o after, occurrences source = before ++ o :: after → (∀ p ∈ before, p.Declared) →
      ¬ o.Declared → ∃ excerpt, Text.Excerpt.of? source.lines o.line o.column = some excerpt ∧
        verify source = .failed ⟨o.name, excerpt⟩ ∧
        converter.convert source = ⟨[], .failed (.undeclared ⟨o.name, excerpt⟩)⟩ ∧
        Failure.message (.undeclared ⟨o.name, excerpt⟩) =
          Dialect.Undeclared.message ⟨o.name, excerpt⟩) ∧
    (Source.isBlank source = false → (∀ o ∈ occurrences source, o.Declared) → ∀ mark,
      (announcing mark).convert source =
        ⟨mark source :: (converter.convert source).log, (converter.convert source).outcome⟩) ∧
    ∀ (registry : Registry) (options : Options), registry.get? options.converter = some converter →
      Builtin.GatedChunks host target registry options source := by
  intro converter announcing
  have hconvert : converter.convert = host.convert target := Builtin.convert_converter host target
  refine ⟨fun hblank => ⟨Dialect.occurrences_of_isBlank hblank, ?_, rfl⟩,
    fun before o after hoccurrences hbefore hundeclared => ?_, fun hblank hall mark => ?_,
    fun registry options hget => Builtin.gatedChunks hget source⟩
  · rw [hconvert]
    exact host.convert_of_gate_failed target (gate_of_isBlank hblank)
  · have hfirst := (Dialect.firstUndeclared?_eq_some_iff source o).2
      ⟨hundeclared, before, after, hoccurrences, hbefore⟩
    obtain ⟨excerpt, hexcerpt, hverify⟩ := Dialect.verify_of_firstUndeclared? hfirst
    refine ⟨excerpt, hexcerpt, hverify, ?_, ?_⟩
    · rw [hconvert]
      exact host.convert_of_gate_failed target (gate_of_verify_failed hverify)
    · simp [Failure.message, Failure.causes, Text.joinWith]
  · have hgate := gate_of_verify_done hblank ((Dialect.verify_eq_done_iff source).2 hall)
    have hannounced := host.convert_announcing target mark hgate
    rwa [← Builtin.convert_converter, ← Builtin.convert_converter] at hannounced

namespace Builtin

def only {Module : Type} (host : Host Module) : Registry where
  converters := [converter host .mlir]
  sorted := List.pairwise_singleton ..
  acceptable := List.forall_mem_singleton.2 (by
    change Registry.nameRefusal? "mlir-to-mlir".toList = none
    decide)

end Builtin

def fragile : Host Text where
  read source := if source.contains '%' then ⟨[], .crashed⟩ else pure source
  write _ text := pure text

/-- A chunk on which the host would crash is kept from it. -/
theorem gate_keeps_undeclared_in_second_chunk :
    (Builtin.only fragile).get? "mlir-to-mlir".toList = some (Builtin.converter fragile .mlir) ∧
    fragile.CrashesOn .mlir "%0 = graphblas.x".toList ∧
    verify "%0 = graphblas.x".toList ≠ .done () ∧
    ∃ undeclared, verify "%0 = graphblas.x".toList = .failed undeclared ∧
      let run := (Builtin.only fragile).convert (Options.forConverter "mlir-to-mlir".toList).split
        "a\n// -----\n%0 = graphblas.x".toList
      run.outcome = .failed (.chunksFailed 1 2) ∧
      .chunkFailed 1 (.undeclared undeclared) ∈ run.log := by
  have hverify : verify "%0 = graphblas.x".toList ≠ .done () := by decide
  obtain ⟨-, -, -, hsplit⟩ :=
    gate_keeps_undeclared fragile .mlir "a\n// -----\n%0 = graphblas.x".toList
  have hchunks := hsplit (Builtin.only fragile) (.forConverter "mlir-to-mlir".toList) rfl
  have hrun : ((Builtin.only fragile).convert (Options.forConverter "mlir-to-mlir".toList).split
      "a\n// -----\n%0 = graphblas.x".toList).outcome ≠ .crashed := by
    decide
  obtain ⟨undeclared, hfailed, -, hlog, houtcome⟩ := hchunks.refused hrun 1 _ (by decide) hverify
  exact ⟨rfl, .inl rfl, hverify, undeclared, hfailed, houtcome, hlog⟩

namespace Builtin

variable {Module : Type} {host : Host Module} {target : Ir.Target} {registry : Registry}
  {options : Options} {source : Text}

theorem convert_whole_of_verify_failed {undeclared : Dialect.Undeclared}
    (hget : registry.get? options.converter = some (converter host target))
    (h : verify source = .failed undeclared) :
    (registry.convert options.whole source).outcome = .failed (.undeclared undeclared) := by
  rw [Registry.convert_whole_eq hget, convert_of_verify_failed host target h]
  rfl

theorem convert_split_of_verify_ne
    (hget : registry.get? options.converter = some (converter host target))
    (h : verify source ≠ .done ()) :
    (∃ failed, 1 ≤ failed ∧ (registry.convert options.split source).outcome =
      .failed (.chunksFailed failed (Source.contents source).length)) ∨
    (registry.convert options.split source).outcome = .crashed ∧
      ∃ chunk ∈ Source.contents source, verify chunk = .done () ∧ host.CrashesOn target chunk := by
  by_cases hrun : (registry.convert options.split source).outcome = .crashed
  · obtain ⟨chunk, hchunk, hgate, hcrash⟩ := (convert_split_crashed_iff hget).1 hrun
    exact .inr ⟨hrun, chunk, hchunk, verify_of_gate_done hgate, hcrash⟩
  · -- the chunk that is not let through fails, and without a crash that is not lost
    obtain ⟨chunk, hchunk, hverify⟩ := Source.exists_content_of_verify_ne h
    obtain ⟨undeclared, hfailed⟩ := Dialect.exists_failed_of_verify_ne hverify
    exact .inl ⟨_, outcome_of_verify_failed hget hrun hchunk hfailed⟩

end Builtin

/-- The operations of a text are those of its lines, and the operations of a source are those of
its chunks, each counted on from where it stands. So what is not let through as a whole is not let
through in chunks either. -/
theorem cutting_keeps_operations :
    (∀ text other : Text, occurrences (text ++ '\n' :: other) =
      occurrences text ++ (occurrences other).map (·.below (text.count '\n' + 1))) ∧
    ∀ source : Text,
      (∃ first cuts, Source.Division source first cuts ∧
        let placed := Source.placedFrom [] first cuts
        placed.map Source.Placed.chunk = Source.chunks source ∧
        (∀ p ∈ placed, p.before ++ p.chunk <+: source) ∧
        occurrences source = placed.flatMap fun p =>
          (occurrences p.chunk).map (·.below (p.before.count '\n'))) ∧
      (verify source = .done () ↔ ∀ chunk ∈ Source.chunks source, verify chunk = .done ()) ∧
      (verify source ≠ .done () → ∃ undeclared, verify source = .failed undeclared ∧
        ∀ {Module : Type} (host : Host Module) (target : Ir.Target) (registry : Registry)
          (options : Options),
          registry.get? options.converter = some (Builtin.converter host target) →
          let whole := registry.convert options.whole source
          let split := registry.convert options.split source
          let chunks := Source.contents source
          whole.outcome = .failed (.undeclared undeclared) ∧
          ((∃ failed, 1 ≤ failed ∧
              split.outcome = .failed (.chunksFailed failed chunks.length)) ∨
            split.outcome = .crashed ∧
              ∃ chunk ∈ chunks, verify chunk = .done () ∧ host.CrashesOn target chunk)) := by
  refine ⟨Dialect.occurrences_append_newline, fun source =>
    ⟨?_, Source.verify_iff_chunks source, fun hverify => ?_⟩⟩
  · obtain ⟨first, cuts, h⟩ := Source.exists_division source
    have hchunks : (Source.placedFrom [] first cuts).map Source.Placed.chunk =
        Source.chunks source := by
      rw [Source.placedFrom_chunks, h.chunks_eq]
    exact ⟨first, cuts, h, hchunks, h.placed_prefix [], h.occurrences_eq⟩
  · obtain ⟨undeclared, hfailed⟩ := Dialect.exists_failed_of_verify_ne hverify
    exact ⟨undeclared, hfailed, fun host target registry options hget =>
      ⟨Builtin.convert_whole_of_verify_failed hget hfailed,
        Builtin.convert_split_of_verify_ne hget hverify⟩⟩

def echo : Host Text where
  read source := pure source
  write _ text := pure text

theorem echo_not_crashesOn (target : Ir.Target) (source : Text) :
    ¬ echo.CrashesOn target source := by
  rintro (hread | ⟨text, -, hwrite⟩)
  · cases hread
  · cases hwrite

theorem cutting_keeps_operations_of_second_chunk :
    verify "a\n// -----\n%0 = graphblas.x".toList ≠ .done () ∧
    (Builtin.only echo).get? "mlir-to-mlir".toList = some (Builtin.converter echo .mlir) ∧
    ∃ failed, 1 ≤ failed ∧
      ((Builtin.only echo).convert (Options.forConverter "mlir-to-mlir".toList).split
        "a\n// -----\n%0 = graphblas.x".toList).outcome = .failed (.chunksFailed failed 2) := by
  have hverify : verify "a\n// -----\n%0 = graphblas.x".toList ≠ .done () := by decide
  obtain ⟨-, -, hcut⟩ :=
    cutting_keeps_operations.2 "a\n// -----\n%0 = graphblas.x".toList
  obtain ⟨undeclared, -, hconvert⟩ := hcut hverify
  obtain ⟨-, hfailed | ⟨-, chunk, -, -, hcrash⟩⟩ :=
    hconvert echo .mlir (Builtin.only echo) (.forConverter "mlir-to-mlir".toList) rfl
  · exact ⟨hverify, rfl, hfailed⟩
  · exact absurd hcrash (echo_not_crashesOn .mlir chunk)

end IrConvert
