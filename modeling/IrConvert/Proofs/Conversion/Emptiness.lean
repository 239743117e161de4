import IrConvert.Proofs.Conversion.Gate
import IrConvert.Proofs.Source.Content
import IrConvert.Proofs.Text.Rows

namespace IrConvert

namespace Source

theorem isBlank_newline (text : Text) : isBlank (text ++ ['\n']) = isBlank text := by
  by_cases h : text.getLast? = some '\n'
  · have hnewline : isBlank ['\n'] = true := by decide
    rw [isBlank_append (.inr h), hnewline, Bool.and_true]
  · have hclose : text ++ ['\n'] = text.withNewline := (if_neg h).symm
    rw [hclose, isBlank_withNewline]

theorem isBlank_append_newline (text other : Text) :
    isBlank (text ++ '\n' :: other) = (isBlank text && isBlank other) := by
  have hclosed : Text.Closed (text ++ ['\n']) := .inr List.getLast?_concat
  rw [List.append_cons, isBlank_append hclosed, isBlank_newline]

end Source

namespace Outcome

variable {ε ε' α β : Type} {outcome : Outcome ε α}

theorem mapReason_eq_failed_iff {other : ε → ε'} {reason : ε'} :
    outcome.mapReason other = .failed reason ↔
      ∃ cause, outcome = .failed cause ∧ other cause = reason := by
  cases outcome <;> simp [mapReason]

theorem map_eq_failed_iff {f : α → β} {reason : ε} :
    f <$> outcome = .failed reason ↔ outcome = .failed reason := by
  cases outcome <;> simp

end Outcome

namespace Run

variable {α : Type}

/-- A failure with this message, or an event that ends in it. -/
def Says (run : Run α) (message : Text) : Prop :=
  (∃ failure, run.outcome = .failed failure ∧ failure.message = message) ∨
    ∃ event ∈ run.log, message <:+ event.message

end Run

theorem Registry.mem_log_convert_split {registry : Registry} {options : Options}
    {converter : Converter} (hget : registry.get? options.converter = some converter)
    {source : Text} {event : Event} (h : event ∈ (registry.convert options.split source).log) :
    event = .converting converter.name ∨ event = .split (Source.contents source).length ∨
      ∃ p ∈ (Source.contents source).zipIdx, event ∈ converter.chunkLog p.1 p.2 := by
  rw [log_convert_split hget, List.mem_cons, List.mem_cons, List.mem_flatMap] at h
  rw [name_of_get? hget]
  refine h.imp_right (Or.imp_right fun hchunks => ?_)
  obtain ⟨p, hp, hevent⟩ := hchunks
  obtain ⟨others, hothers⟩ := converter.isPrefix_reached (Source.contents source)
  refine ⟨p, ?_, hevent⟩
  rw [← hothers, List.zipIdx_append]
  exact List.mem_append_left _ hp

/-- A chunk that is reported has one message, whatever its number. -/
theorem Event.message_of_chunkFailed {index number : ℕ} {failure : Failure} {text : Text}
    (h : (Event.chunkFailed index failure).message =
      "Chunk ".toList ++ Text.ofNat number ++ " failed: ".toList ++ text) :
    failure.message = text := by
  change "Chunk ".toList ++ Text.ofNat index ++ " failed: ".toList ++ failure.message = _ at h
  have hspace : " failed: ".toList = ' ' :: "failed: ".toList := rfl
  rw [hspace] at h
  simp only [List.append_assoc, List.append_cancel_left_eq, List.cons_append] at h
  have htail := Text.eq_of_ofNat_append h
  exact List.append_cancel_left htail

/-- What is reported of a chunk has been said by the converter. -/
theorem Registry.says_of_mem_log {registry : Registry} {options : Options} {converter : Converter}
    (hget : registry.get? options.converter = some converter) {source text : Text} {number : ℕ}
    (h : "Chunk ".toList ++ Text.ofNat number ++ " failed: ".toList ++ text ∈
      (registry.convert options.split source).log.map Event.message) :
    ∃ chunk ∈ Source.contents source, (converter.convert chunk).Says text := by
  obtain ⟨event, hevent, hmessage⟩ := List.mem_map.1 h
  rcases mem_log_convert_split hget hevent with rfl | rfl | ⟨p, hp, hlog⟩
  · change "Translating with --".toList ++ _ = _ at hmessage
    simpa using congrArg List.head? hmessage
  · change "Split input into ".toList ++ _ ++ " chunks".toList = _ at hmessage
    simpa using congrArg List.head? hmessage
  · refine ⟨p.1, List.fst_mem_of_mem_zipIdx hp, ?_⟩
    rw [Converter.chunkLog, List.mem_append] at hlog
    rcases hlog with hown | hfailed
    · refine .inr ⟨event, hown, ?_⟩
      rw [hmessage]
      apply List.suffix_append
    · split at hfailed
      · next failure houtcome =>
        rw [List.mem_singleton.1 hfailed] at hmessage
        exact .inl ⟨failure, houtcome, Event.message_of_chunkFailed hmessage⟩
      · cases hfailed

theorem Run.says_bind {α β : Type} {run : Run α} {next : α → Run β} {message : Text}
    (h : (run >>= next).Says message) :
    run.Says message ∨ ∃ value, run.outcome = .done value ∧ (next value).Says message := by
  obtain ⟨log, outcome⟩ := run
  cases outcome with
  | failed failure =>
    left
    rcases h with ⟨reason, houtcome, hmessage⟩ | hlogged
    · obtain rfl := Outcome.failed.inj houtcome
      exact .inl ⟨failure, rfl, hmessage⟩
    · exact .inr hlogged
  | crashed =>
    left
    rcases h with ⟨reason, houtcome, -⟩ | hlogged
    · cases houtcome
    · exact .inr hlogged
  | done value =>
    rw [Run.bind_of_done next rfl] at h
    rcases h with hfailed | ⟨event, hevent, hmessage⟩
    · exact .inr ⟨value, rfl, .inl hfailed⟩
    · rcases List.mem_append.1 hevent with hfirst | hnext
      · exact .inl (.inr ⟨event, hfirst, hmessage⟩)
      · exact .inr ⟨value, rfl, .inr ⟨event, hnext, hmessage⟩⟩

def emptyMessage : Text := "Input does not contain any operations"

theorem Failure.message_of_causes {failure : Failure} {text : Text} (h : failure.causes = [text]) :
    failure.message = text := by
  simp [message, h, Text.joinWith]

theorem Dialect.Undeclared.head?_message (undeclared : Undeclared) :
    undeclared.message.head? = some 'U' := rfl

theorem isBlank_of_gate {source : Text} {failure : Failure} (h : gate source = .failed failure)
    (hmessage : failure.message = emptyMessage) : Source.isBlank source = true := by
  by_contra hblank
  rw [gate_of_not_isBlank (Bool.eq_false_iff.2 hblank), Outcome.mapReason_eq_failed_iff] at h
  obtain ⟨undeclared, -, rfl⟩ := h
  -- the message about an undeclared operation starts with another letter
  have hhead := undeclared.head?_message
  rw [← @Failure.message_of_causes (.undeclared undeclared) _ rfl, hmessage] at hhead
  revert hhead
  decide

theorem not_says_runningPasses (target : Ir.Target) :
    ¬(Run.emit (.runningPasses target.passes)).Says emptyMessage := by
  rintro (⟨failure, houtcome, -⟩ | ⟨event, hevent, hmessage⟩)
  · cases houtcome
  · rw [List.mem_singleton.1 hevent] at hmessage
    revert hmessage
    cases target <;> decide

namespace Host

variable {Module : Type} {host : Host Module} {target : Ir.Target} {source : Text}

def Says (host : Host Module) (message : Text) : Prop :=
  (∃ source, (host.read source).Says message) ∨
    ∃ target module, (host.write target module).Says message

/-- Of a source that is not blank only the host can say that there is nothing in it. -/
theorem says_of_convert (hblank : Source.isBlank source = false)
    (h : (host.convert target source).Says emptyMessage) : host.Says emptyMessage := by
  rcases Run.says_bind h with hgate | ⟨passed, -, hread⟩
  · rcases hgate with ⟨failure, houtcome, hmessage⟩ | ⟨event, hevent, -⟩
    · rw [isBlank_of_gate houtcome hmessage] at hblank
      cases hblank
    · cases hevent
  · rcases Run.says_bind hread with hsays | ⟨module, -, hrest⟩
    · exact .inl ⟨source, hsays⟩
    · rcases Run.says_bind hrest with hpasses | ⟨emitted, -, hwrite⟩
      · exact absurd hpasses (not_says_runningPasses target)
      · exact .inr ⟨target, module, hwrite⟩

end Host

namespace Ir

theorem Fault.head?_message_ne (fault : Fault) : fault.message.head? ≠ some 'I' := by
  intro h
  cases fault with
  | unterminatedString => cases h
  | misread place complaint => cases h
  | typeCount wanted given => cases h
  | untyped operand => cases h
  | unreadable place c =>
    -- whether or not there is a row before it, an excerpt starts with its fence
    obtain ⟨before, row, number, column⟩ := place
    cases before <;> cases h

theorem host_not_says : ¬host.Says emptyMessage := by
  rintro (⟨source, ⟨failure, houtcome, hmessage⟩ | ⟨event, hevent, -⟩⟩ |
    ⟨target, operations, ⟨failure, houtcome, -⟩ | ⟨event, hevent, -⟩⟩)
  · obtain ⟨fault, -, rfl⟩ := Outcome.mapReason_eq_failed_iff.1 houtcome
    rw [Failure.message_of_causes rfl] at hmessage
    apply fault.head?_message_ne
    rw [hmessage]
    rfl
  · cases hevent
  · change Outcome.ofOption (write? operations target) = _ at houtcome
    cases hwrite : write? operations target with
    | some text => rw [hwrite] at houtcome; cases houtcome
    | none => rw [hwrite] at houtcome; cases houtcome
  · cases hevent

end Ir

namespace Registry

variable {registry : Registry} {options : Options}

theorem convert_split_noChunks_iff {converter : Converter}
    (hget : registry.get? options.converter = some converter) (source : Text) :
    (registry.convert options.split source).outcome.mapReason Failure.message =
      .failed "Input does not contain any chunks".toList ↔ Source.isBlank source = true := by
  rw [← Source.contents_eq_nil_iff]
  by_cases hrun : (registry.convert options.split source).outcome = .crashed
  · obtain ⟨chunk, hchunk, -⟩ := (convert_split_crashed_iff hget source).1 hrun
    rw [hrun]
    refine iff_of_false (fun h => ?_) (List.ne_nil_of_mem hchunk)
    cases h
  · rw [outcome_convert_split_of_ne_crashed hget hrun]
    exact converter.message_ending_eq_iff (Source.contents source)

theorem convert_whole_empty_iff {Module : Type} {host : Host Module} {target : Ir.Target}
    (hhost : ¬host.Says emptyMessage)
    (hget : registry.get? options.converter = some (Builtin.converter host target))
    (source : Text) :
    (registry.convert options.whole source).outcome.mapReason Failure.message =
      .failed emptyMessage ↔ Source.isBlank source = true := by
  rw [convert_whole_eq hget, Builtin.convert_converter]
  dsimp only
  constructor
  · intro h
    by_contra hblank
    apply hhost
    apply host.says_of_convert (Bool.eq_false_iff.2 hblank)
    obtain ⟨failure, hfailure, hmessage⟩ := Outcome.mapReason_eq_failed_iff.1 h
    exact .inl ⟨failure, Outcome.map_eq_failed_iff.1 hfailure, hmessage⟩
  · intro hblank
    rw [host.convert_of_gate_failed target (gate_of_isBlank hblank)]
    rfl

end Registry

/-- All parts of a conversion agree on what is empty: blank texts stay blank when they are put
together or cut into chunks, and just the blank sources are refused, by the conversion chunk by
chunk and by the gate. Nothing is logged of an empty chunk unless a converter says so itself of one
that is not blank, and the converters of a host do not if the host does not. -/
theorem empty_iff_isBlank :
    (∀ text other : Text, Source.isBlank (text ++ '\n' :: other) = true ↔
      Source.isBlank text = true ∧ Source.isBlank other = true) ∧
    ∀ source : Text,
      (Source.isBlank source = true ↔
        ∀ chunk ∈ Source.chunks source, Source.isBlank chunk = true) ∧
      (∀ (registry : Registry) (options : Options) (converter : Converter),
        registry.get? options.converter = some converter →
        ((registry.convert options.split source).outcome.mapReason Failure.message =
            .failed "Input does not contain any chunks".toList ↔
          Source.isBlank source = true) ∧
        ∀ number, "Chunk ".toList ++ Text.ofNat number ++ " failed: ".toList ++
            "Input does not contain any operations".toList ∈
          (registry.convert options.split source).log.map Event.message →
          ∃ chunk ∈ Source.chunks source, Source.isBlank chunk = false ∧
            (converter.convert chunk).Says "Input does not contain any operations".toList) ∧
      ∀ {Module : Type} (host : Host Module) (target : Ir.Target) (registry : Registry)
        (options : Options),
        ¬host.Says "Input does not contain any operations".toList →
        registry.get? options.converter = some (Builtin.converter host target) →
        ((registry.convert options.whole source).outcome.mapReason Failure.message =
            .failed "Input does not contain any operations".toList ↔
          Source.isBlank source = true) ∧
        ∀ number, "Chunk ".toList ++ Text.ofNat number ++ " failed: ".toList ++
            "Input does not contain any operations".toList ∉
          (registry.convert options.split source).log.map Event.message := by
  refine ⟨fun text other => ?_, fun source => ⟨Source.isBlank_iff_chunks source,
    fun registry options converter hget =>
      ⟨Registry.convert_split_noChunks_iff hget source, fun number hlogged => ?_⟩,
    fun host target registry options hhost hget =>
      ⟨Registry.convert_whole_empty_iff hhost hget source, fun number hlogged => ?_⟩⟩⟩
  · rw [Source.isBlank_append_newline, Bool.and_eq_true]
  · obtain ⟨chunk, hchunk, hsays⟩ := Registry.says_of_mem_log hget hlogged
    have hmem : chunk ∈ Source.chunks source := (List.mem_filter.1 hchunk).1
    exact ⟨chunk, hmem, Source.isBlank_of_mem_contents hchunk, hsays⟩
  · obtain ⟨chunk, hchunk, hsays⟩ := Registry.says_of_mem_log hget hlogged
    rw [Builtin.convert_converter] at hsays
    exact hhost (host.says_of_convert (Source.isBlank_of_mem_contents hchunk) hsays)

theorem empty_iff_isBlank_of_marked_comment :
    let registry := Registry.empty.after [.builtins]
    let options := Options.forConverter "mlir-to-mlir".toList
    let source := "\u2003// x\r\n// -----".toList
    ¬Ir.host.Says "Input does not contain any operations".toList ∧
    registry.get? options.converter = some (Builtin.converter Ir.host .mlir) ∧
    (registry.convert options.split source).outcome.mapReason Failure.message =
      .failed "Input does not contain any chunks".toList ∧
    (registry.convert options.whole source).outcome.mapReason Failure.message =
      .failed "Input does not contain any operations".toList := by
  intro registry options source
  have hget : registry.get? options.converter = some (Builtin.converter Ir.host .mlir) := rfl
  have hblank : Source.isBlank source = true := by decide
  obtain ⟨-, hsplit, hwhole⟩ := empty_iff_isBlank.2 source
  refine ⟨Ir.host_not_says, hget, (hsplit registry options _ hget).1.2 hblank, ?_⟩
  obtain ⟨hempty, -⟩ := hwhole Ir.host .mlir registry options Ir.host_not_says hget
  exact hempty.2 hblank

end IrConvert
