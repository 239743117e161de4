import IrConvert.Proofs.Service.Atomicity

namespace IrConvert

open Storage (Endpoint Store)

def Options.parts (options : Options) (source : Text) : List Text :=
  if options.splitInput then Source.contents source else [source]

namespace Options

variable {options : Options}

theorem parts_split (source : Text) : options.split.parts source = Source.contents source := rfl

theorem parts_whole (source : Text) : options.whole.parts source = [source] := rfl

theorem eq_split_or_whole (options : Options) :
    options = options.split ∨ options = options.whole := by
  obtain ⟨converter, input, output, splitInput, debug⟩ := options
  cases splitInput with
  | true => exact .inl rfl
  | false => exact .inr rfl

end Options

theorem Converter.ending_failed {converter : Converter} {chunks : List Text} {failure : Failure}
    (h : converter.ending chunks = .failed failure) :
    failure = .noChunks ∨ ∃ failed total, failure = .chunksFailed failed total := by
  rw [ending] at h
  split at h
  · exact .inl (Outcome.failed.inj h).symm
  · split at h
    · cases h
    · exact .inr ⟨_, _, (Outcome.failed.inj h).symm⟩

namespace Registry

variable {registry : Registry} {options : Options} {converter : Converter}

theorem convert_crashed_iff (h : registry.get? options.converter = some converter)
    (source : Text) :
    (registry.convert options source).outcome = .crashed ↔
      ∃ part ∈ options.parts source, (converter.convert part).outcome = .crashed := by
  rcases options.eq_split_or_whole with hsplit | hwhole
  · rw [hsplit, convert_split_crashed_iff h, Options.parts_split]
  · rw [hwhole, convert_whole_eq h, Options.parts_whole]
    simp only [List.mem_singleton, exists_eq_left]
    cases (converter.convert source).outcome <;> simp

/-- A failure is that of the converter, unless it is about the chunks. -/
theorem convert_failed (h : registry.get? options.converter = some converter) {source : Text}
    {failure : Failure} (hfailed : (registry.convert options source).outcome = .failed failure) :
    (∃ part ∈ options.parts source, (converter.convert part).outcome = .failed failure) ∨
      failure = .noChunks ∨ ∃ failed total, failure = .chunksFailed failed total := by
  rcases options.eq_split_or_whole with hsplit | hwhole
  · rw [hsplit] at hfailed
    have hrun : (registry.convert options.split source).outcome ≠ .crashed := by simp [hfailed]
    rw [outcome_convert_split_of_ne_crashed h hrun] at hfailed
    exact .inr (converter.ending_failed hfailed)
  · rw [hwhole, convert_whole_eq h] at hfailed
    rw [hwhole, Options.parts_whole]
    refine .inl ⟨source, List.mem_singleton_self source, ?_⟩
    cases hconvert : (converter.convert source).outcome with
    | done output =>
      rw [hconvert] at hfailed
      cases hfailed
    | failed reason =>
      rw [hconvert] at hfailed
      exact hfailed
    | crashed =>
      rw [hconvert] at hfailed
      cases hfailed

end Registry

variable {σ : Type} [Store σ]

theorem Setting.source_eq_error {setting : Setting σ} {input : Endpoint} {failure : Failure}
    (h : setting.source input = .error failure) : ∃ fault, failure = .notRead input fault := by
  unfold Setting.source at h
  split at h
  · exact ⟨_, (Except.error.inj h).symm⟩
  · split at h
    · cases h
    · exact ⟨_, (Except.error.inj h).symm⟩

theorem Setting.written_ofWord_eq_error_iff (setting : Setting σ) (text word : Text)
    (failure : Failure) :
    setting.written text (.ofWord word) = .error failure ↔
      word = ['-'] ∧ (∃ fault, setting.outputFault? = some fault ∧
        failure = .notWritten .standard fault) ∨
      word ≠ ['-'] ∧ ∃ fault, Store.write setting.store word text.encode = .error fault ∧
        failure = .notWritten (.file word) fault := by
  unfold Endpoint.ofWord
  by_cases hword : word = ['-']
  · rw [if_pos hword, written]
    cases setting.outputFault? with
    | none => simp [hword]
    | some fault => simp [hword, eq_comm]
  · rw [if_neg hword, written]
    cases Store.write setting.store word text.encode with
    | error fault => simp [hword, eq_comm]
    | ok store => simp [hword]

namespace Registry

/-- Why nothing comes of a request with these options. -/
inductive Hindered (registry : Registry) (options : Options) (setting : Setting σ) :
    Failure → Prop where
  | unread {failure : Failure}
      (given : setting.source (.ofWord options.input) = .error failure) :
      Hindered registry options setting failure
  | failed {source : Text} {failure : Failure}
      (given : setting.source (.ofWord options.input) = .ok source)
      (converted : (registry.convert options source).outcome = .failed failure) :
      Hindered registry options setting failure
  | unprinted {source text : Text} {fault : Storage.Fault}
      (given : setting.source (.ofWord options.input) = .ok source)
      (converted : (registry.convert options source).outcome = .done text)
      (standard : options.output = ['-'])
      (output : setting.outputFault? = some fault) :
      Hindered registry options setting (.notWritten .standard fault)
  | unwritten {source text : Text} {fault : Storage.Fault}
      (given : setting.source (.ofWord options.input) = .ok source)
      (converted : (registry.convert options source).outcome = .done text)
      (file : options.output ≠ ['-'])
      (output : Store.write setting.store options.output text.encode = .error fault) :
      Hindered registry options setting (.notWritten (.file options.output) fault)

variable {registry : Registry} {about : Text} {arguments : List Text}
  {setting after : Setting σ} {result : Except Stop Unit}

theorem Serves.usage_iff (h : Serves registry about arguments setting result after)
    (error : CommandLine.UsageError) :
    result = .error (.usage error) ↔
      registry.optionsOf (registry.command about) arguments = .error (.usage error) := by
  cases h with
  | refused asked => simp [asked]
  | unread asked given => simp [asked]
  | failed asked given converted => simp [asked]
  | crashed asked given converted => simp [asked]
  | unwritten asked given converted output => simp [asked]
  | written asked given converted output => simp [asked]

theorem Serves.crash_iff (h : Serves registry about arguments setting result after)
    (hasked : registry.optionsOf (registry.command about) arguments ≠ .error .crash) :
    result = .error .crash ↔ ∃ options source,
      registry.optionsOf (registry.command about) arguments = .ok options ∧
      setting.source (.ofWord options.input) = .ok source ∧
      (registry.convert options source).outcome = .crashed := by
  cases h with
  | refused asked => simpa [asked] using hasked
  | unread asked given => simp [asked, given]
  | failed asked given converted => simp [asked, given, converted]
  | crashed asked given converted => simp [asked, given, converted]
  | unwritten asked given converted output => simp [asked, given, converted]
  | written asked given converted output => simp [asked, given, converted]

theorem Serves.result_eq {result' : Except Stop Unit} {after' : Setting σ}
    (h : Serves registry about arguments setting result after)
    (h' : Serves registry about arguments setting result' after') : result = result' := by
  have hend := resultOf_serve h
  rw [resultOf_serve h'] at hend
  exact (congrArg Prod.fst hend).symm

theorem Hindered.serves {options : Options} {failure : Failure}
    (h : Hindered registry options setting failure)
    (asked : registry.optionsOf (registry.command about) arguments = .ok options) :
    ∃ after, Serves registry about arguments setting (.error (.failure failure)) after := by
  cases h with
  | unread given => exact ⟨_, .unread asked given⟩
  | failed given converted => exact ⟨_, .failed asked given converted⟩
  | unprinted given converted standard output =>
    refine ⟨_, .unwritten asked given converted ?_⟩
    rw [Setting.written_ofWord_eq_error_iff, outputFault?_writingFrom]
    exact .inl ⟨standard, _, output, rfl⟩
  | unwritten given converted file output =>
    refine ⟨_, .unwritten asked given converted ?_⟩
    rw [Setting.written_ofWord_eq_error_iff, store_writingFrom]
    exact .inr ⟨file, _, output, rfl⟩

theorem Serves.failure_iff {failure : Failure}
    (h : Serves registry about arguments setting result after)
    (hasked : registry.optionsOf (registry.command about) arguments ≠ .error (.failure failure)) :
    result = .error (.failure failure) ↔ ∃ options,
      registry.optionsOf (registry.command about) arguments = .ok options ∧
      Hindered registry options setting failure := by
  constructor
  · intro hresult
    subst hresult
    cases h with
    | refused asked => exact absurd asked hasked
    | unread asked given => exact ⟨_, asked, .unread given⟩
    | failed asked given converted => exact ⟨_, asked, .failed given converted⟩
    | unwritten asked given converted output =>
      rw [Setting.written_ofWord_eq_error_iff, outputFault?_writingFrom,
        store_writingFrom] at output
      obtain ⟨standard, fault, hfault, rfl⟩ | ⟨file, fault, hwrite, rfl⟩ := output
      · exact ⟨_, asked, .unprinted given converted standard hfault⟩
      · exact ⟨_, asked, .unwritten given converted file hwrite⟩
  · intro hhindered
    obtain ⟨options, asked, hhindered⟩ := hhindered
    obtain ⟨after', hserves⟩ := hhindered.serves asked
    exact h.result_eq hserves

end Registry

end IrConvert
