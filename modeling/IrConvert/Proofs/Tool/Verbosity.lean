import IrConvert.Proofs.CommandLine.Leading
import IrConvert.Proofs.CommandLine.Selected
import IrConvert.Proofs.Tool.Exit

namespace IrConvert

open CommandLine
open Storage (Endpoint Store)

def Options.debugging (options : Options) : Options := { options with debug := true }

def debugWord : Text := "--".toList ++ Options.debugArgument.id

namespace Registry

variable {registry : Registry} {about program : Text} {words : List Text}

theorem eq_debugArgument : ∀ argument ∈ fixedArguments, argument.id = Options.debugArgument.id →
    argument.long = some Options.debugArgument.id ∧ argument.short = none ∧
      argument.action = .raiseFlag := by decide

theorem hasFlag_debug : (registry.command about).HasFlag Options.debugArgument.id := by
  constructor
  · exact ⟨Options.debugArgument, ofLong?_debug, rfl, rfl⟩
  · intro argument hmem hid
    rw [allArguments_eq] at hmem
    rcases List.mem_append.1 hmem with hconverter | hfixed
    · obtain ⟨converter, hregistered, rfl⟩ := List.mem_map.1 hconverter
      have hname : Options.debugArgument.id ∈ registry.names :=
        List.mem_map.2 ⟨converter, hregistered, hid⟩
      exact absurd hname (not_mem_names_of_reserved (by decide))
    · exact eq_debugArgument argument hfixed hid

theorem undemanded_debug : (registry.command about).Undemanded Options.debugArgument.id := by
  intro group hgroup
  rw [groups_command] at hgroup
  rcases List.mem_append.1 hgroup with hconverters | hoptions
  · left
    rw [groups] at hconverters
    split at hconverters
    · cases hconverters
    · rw [List.mem_singleton.1 hconverters]
      exact not_mem_names_of_reserved (by decide)
  · right
    rw [List.mem_singleton.1 hoptions]
    exact ⟨rfl, rfl⟩

theorem read_debug (h : debugWord ∉ words) :
    (registry.command about).read (program :: debugWord :: words) =
      ((registry.command about).read (program :: words)).map
        (·.raised Options.debugArgument.id) :=
  Command.read_leading hasFlag_debug undemanded_debug (by decide) (by decide) h program

theorem options_debug (given : Given) :
    registry.options (given.raised Options.debugArgument.id) =
      (registry.options given).map Options.debugging := by
  have hother {id : Text} (hid : id ≠ Options.debugArgument.id) :
      (given.raised Options.debugArgument.id).flags.contains id = given.flags.contains id := by
    change (Options.debugArgument.id :: given.flags).contains id = _
    rw [List.contains_cons, beq_eq_false_iff_ne.2 hid, Bool.false_or]
  have hnames : registry.names.filter (given.raised Options.debugArgument.id).flags.contains =
      registry.names.filter given.flags.contains :=
    List.filter_congr fun name hname => hother (ne_of_mem_names hname (by decide))
  have hdebug : (given.raised Options.debugArgument.id).flags.contains
      Options.debugArgument.id = true := by
    rw [List.contains_iff_mem]
    exact List.mem_cons_self
  unfold options
  rw [hnames, hdebug, hother (by decide)]
  cases registry.names.filter given.flags.contains with
  | nil => rfl
  | cons name others =>
    cases others with
    | nil => rfl
    | cons name' others => rfl

/-- The flag in front changes neither what the other words ask for nor why they are refused. -/
theorem optionsOf_debug (h : debugWord ∉ words) :
    registry.optionsOf (registry.command about) (program :: debugWord :: words) =
      (registry.optionsOf (registry.command about) (program :: words)).map Options.debugging := by
  by_cases hids : (registry.command about).ids.Nodup
  · rw [optionsOf_eq hids, optionsOf_eq hids, read_debug h]
    cases (registry.command about).read (program :: words) with
    | error error => rfl
    | ok given =>
      dsimp only [Except.map]
      rw [options_debug]
      cases registry.options given <;> rfl
  · rw [optionsOf_of_clash hids, optionsOf_of_clash hids]
    rfl

/-- Without its word the flag is not raised. -/
theorem quiet_of_optionsOf (h : debugWord ∉ words) {options : Options}
    (hoptions : registry.optionsOf (registry.command about) (program :: words) = .ok options) :
    options.debug = false := by
  obtain ⟨given, hread, hgiven⟩ := exists_of_optionsOf hoptions
  obtain ⟨hwords, -⟩ := Command.read_eq_ok_iff.1 hread
  have hflags : Options.debugArgument.id ∉ given.flags := by
    rw [Command.mem_flags_of_readWords hasFlag_debug hwords]
    intro hraises
    obtain ⟨-, -, hmem⟩ := raises_iff.1 hraises
    exact h (List.takeWhile_subset _ hmem)
  rw [Registry.options] at hgiven
  split at hgiven
  · cases hgiven
  · obtain rfl := Except.ok.inj hgiven
    exact Bool.eq_false_iff.2 fun hraised => hflags (List.contains_iff_mem.1 hraised)
  · cases hgiven

end Registry

/-- What those who ask for `threshold` and above see of a log. -/
def shown (threshold : Level) (log : List Event) : Text :=
  (log.filter (·.level.shownAt threshold)).flatMap Event.render

theorem shown_append (threshold : Level) (log later : List Event) :
    shown threshold (log ++ later) = shown threshold log ++ shown threshold later := by
  unfold shown
  rw [List.filter_append, List.flatMap_append]

theorem shown_debug (log : List Event) : shown .debug log = log.flatMap Event.render := by
  have hall : log.filter (·.level.shownAt .debug) = log :=
    List.filter_eq_self.2 fun event _ => decide_eq_true (Nat.zero_le event.level.rank)
  rw [shown, hall]

theorem shown_info (log : List Event) :
    shown .info log = (log.filter (·.level ≠ .debug)).flatMap Event.render := by
  have hlevel (level : Level) : level.shownAt .info = decide (level ≠ .debug) := by
    cases level <;> rfl
  unfold shown
  simp only [hlevel]

namespace Setting

variable {σ : Type}

theorem shownFrom_emitAll (setting : Setting σ) (log : List Event) :
    (setting.emitAll log).shownFrom = setting.shownFrom := by
  induction log generalizing setting with
  | nil => rfl
  | cons event log ih => exact ih (setting.emit event)

theorem errors_emitAll (setting : Setting σ) (log : List Event) :
    (setting.emitAll log).errors = setting.errors ++ shown setting.shownFrom log := by
  induction log generalizing setting with
  | nil => exact (List.append_nil _).symm
  | cons event log ih =>
    change ((setting.emit event).emitAll log).errors = _
    have hemit : (setting.emit event).errors =
        setting.errors ++ shown setting.shownFrom [event] := by
      unfold emit shown
      by_cases h : event.level.shownAt setting.shownFrom = true
      · simp [h]
      · simp [h]
    rw [ih, hemit, List.append_assoc]
    exact congrArg (setting.errors ++ ·) (shown_append _ [event] log).symm

/-- Two settings that differ in nothing but in which of their events have been shown. -/
structure Alike (quiet loud : Setting σ) : Prop where
  outputFault? : loud.outputFault? = quiet.outputFault?
  standardOutput : loud.standardOutput = quiet.standardOutput
  store : loud.store = quiet.store
  log : loud.log = quiet.log
  quietFrom : quiet.shownFrom = .info
  loudFrom : loud.shownFrom = .debug
  quietErrors : quiet.errors = shown .info quiet.log
  loudErrors : loud.errors = shown .debug quiet.log

variable {quiet loud : Setting σ}

theorem Alike.emitAll (h : Alike quiet loud) (log : List Event) :
    Alike (quiet.emitAll log) (loud.emitAll log) where
  outputFault? := by simpa using h.outputFault?
  standardOutput := by simpa using h.standardOutput
  store := by simpa using h.store
  log := by simp [h.log]
  quietFrom := (shownFrom_emitAll _ _).trans h.quietFrom
  loudFrom := (shownFrom_emitAll _ _).trans h.loudFrom
  quietErrors := by
    rw [errors_emitAll, log_emitAll, shown_append, h.quietFrom, h.quietErrors]
  loudErrors := by
    rw [errors_emitAll, log_emitAll, shown_append, h.loudFrom, h.loudErrors]

theorem alike_readingFrom {options : Options} (hquiet : options.debug = false)
    (stdin : Except Storage.Fault ByteArray) (fault? : Option Storage.Fault) (files : σ) :
    Alike (Registry.readingFrom options (.fresh stdin fault? files))
      (Registry.readingFrom options.debugging (.fresh stdin fault? files)) := by
  obtain ⟨converter, input, output, splitInput, debug⟩ := options
  obtain rfl : debug = false := hquiet
  have hstart : Alike { Setting.fresh stdin fault? files with shownFrom := .info }
      { Setting.fresh stdin fault? files with shownFrom := .debug } :=
    ⟨rfl, rfl, rfl, rfl, rfl, rfl, rfl, rfl⟩
  exact hstart.emitAll [.reading input]

variable [Store σ]

theorem Alike.written_ok {after : Setting σ} {text : Text} {output : Endpoint}
    (h : Alike quiet loud) (hwritten : quiet.written text output = .ok after) :
    ∃ after', loud.written text output = .ok after' ∧ Alike after after' := by
  cases output with
  | standard =>
    unfold written at hwritten ⊢
    dsimp only at hwritten ⊢
    cases hquiet : quiet.outputFault? with
    | some fault =>
      rw [hquiet] at hwritten
      cases hwritten
    | none =>
      have hloud := h.outputFault?.trans hquiet
      rw [hquiet] at hwritten
      rw [hloud]
      obtain rfl := Except.ok.inj hwritten
      exact ⟨_, rfl, { h with
        outputFault? := rfl, standardOutput := congrArg (· ++ text) h.standardOutput }⟩
  | file path =>
    unfold written at hwritten ⊢
    dsimp only at hwritten ⊢
    rw [h.store]
    split at hwritten
    · obtain rfl := Except.ok.inj hwritten
      exact ⟨_, rfl, { h with store := rfl }⟩
    · cases hwritten

theorem Alike.written_error {failure : Failure} {text : Text} {output : Endpoint}
    (h : Alike quiet loud) (hwritten : quiet.written text output = .error failure) :
    loud.written text output = .error failure := by
  cases output with
  | standard =>
    unfold written at hwritten ⊢
    dsimp only at hwritten ⊢
    rw [h.outputFault?]
    split at hwritten
    · cases hwritten
    · exact hwritten
  | file path =>
    unfold written at hwritten ⊢
    dsimp only at hwritten ⊢
    rw [h.store]
    split at hwritten
    · cases hwritten
    · exact hwritten

end Setting

namespace Registry

open Setting (Alike)

variable {σ : Type} [Store σ] {registry : Registry} {about : Text}
  {arguments arguments' : List Text}

/-- A request that shows all events comes as far as one that does not. -/
theorem Serves.debugging {options : Options} {stdin : Except Storage.Fault ByteArray}
    {fault? : Option Storage.Fault} {files : σ} {result : Except Stop Unit} {quiet : Setting σ}
    (hquiet : options.debug = false)
    (hasked : registry.optionsOf (registry.command about) arguments = .ok options)
    (hloud : registry.optionsOf (registry.command about) arguments' = .ok options.debugging)
    (h : Serves registry about arguments (.fresh stdin fault? files) result quiet) :
    ∃ loud, Serves registry about arguments' (.fresh stdin fault? files) result loud ∧
      Alike quiet loud := by
  have hreading := Setting.alike_readingFrom hquiet stdin fault? files
  have hconverted (source : Text) := hreading.emitAll (registry.convert options source).log
  have hwriting (source : Text) := (hconverted source).emitAll [.writing options.output]
  cases h with
  | refused asked => cases asked.symm.trans hasked
  | unread asked given =>
    obtain rfl := Except.ok.inj (asked.symm.trans hasked)
    exact ⟨_, .unread hloud given, hreading⟩
  | failed asked given converted =>
    obtain rfl := Except.ok.inj (asked.symm.trans hasked)
    exact ⟨_, .failed hloud given converted, hconverted _⟩
  | crashed asked given converted =>
    obtain rfl := Except.ok.inj (asked.symm.trans hasked)
    exact ⟨_, .crashed hloud given converted, hconverted _⟩
  | unwritten asked given converted output =>
    obtain rfl := Except.ok.inj (asked.symm.trans hasked)
    exact ⟨_, .unwritten hloud given converted ((hwriting _).written_error output), hwriting _⟩
  | written asked given converted output =>
    obtain rfl := Except.ok.inj (asked.symm.trans hasked)
    obtain ⟨loud, hwritten, halike⟩ := (hwriting _).written_ok output
    exact ⟨loud, .written hloud given converted hwritten, halike⟩

end Registry

namespace Tool

open Setting (Alike)

variable {σ Module : Type} [Store σ] {host : Host Module} {words : List Text}

/-- What a run says at its end, of a request whose command line is accepted. -/
def finalOf : Except Stop Unit → Text
  | .error (.failure failure) => "error: " ++ failure.message ++ ['\n']
  | .error .crash => "error: the conversion crashed" ++ ['\n']
  | _ => []

theorem asked_debug (host : Host Module) (h : debugWord ∉ words) :
    asked host (debugWord :: words) = (asked host words).map Options.debugging :=
  Registry.optionsOf_debug h

theorem conclude_accepted (command : Command) {result : Except Stop Unit}
    (h : ∀ error, result ≠ .error (.usage error)) (setting : Setting σ) :
    endOf (conclude command result) setting =
      (exitOf result, { setting with errors := setting.errors ++ finalOf result }) := by
  cases result with
  | ok value =>
    change (Exit.success, setting) = (Exit.success, { setting with errors := setting.errors ++ [] })
    rw [List.append_nil]
  | error stop =>
    cases stop with
    | usage error => exact absurd rfl (h error)
    | failure failure => rfl
    | crash => rfl

/-- A flag for all events, in front of words that do not have it, changes what is shown and
nothing else. -/
theorem debug_shows_only (host : Host Module) (h : debugWord ∉ words)
    (stdin : Except Storage.Fault ByteArray) (outputFault? : Option Storage.Fault) (files : σ) :
    let start := Setting.fresh stdin outputFault? files
    let quiet := endOf (runOn host words) start
    let loud := endOf (runOn host (debugWord :: words)) start
    loud.1 = quiet.1 ∧ loud.2.standardOutput = quiet.2.standardOutput ∧
    loud.2.store = quiet.2.store ∧
    asked host (debugWord :: words) = (asked host words).map Options.debugging ∧
    ((∃ options, asked host words = .ok options) →
      loud.2.log = quiet.2.log ∧ ∃ final,
        loud.2.errors = quiet.2.log.flatMap Event.render ++ final ∧
        quiet.2.errors =
          (quiet.2.log.filter (·.level ≠ .debug)).flatMap Event.render ++ final ∧
        (quiet.1 = .success → final = []) ∧
        (quiet.1 = .failure →
          ∃ failure : Failure, final = "error: " ++ failure.message ++ ['\n'])) := by
  intro start quiet loud
  have hdebug := asked_debug host h
  cases hasked : asked host words with
  | error stop =>
    have hquiet : quiet = endOf (conclude ((known host).command about) (.error stop)) start :=
      congrArg (endOf · start) (runOn_of_refused host hasked)
    rw [hasked] at hdebug
    have hloud : loud = endOf (conclude ((known host).command about) (.error stop)) start :=
      congrArg (endOf · start) (runOn_of_refused host hdebug)
    rw [hloud, hquiet]
    refine ⟨rfl, rfl, rfl, hdebug, ?_⟩
    intro haccepted
    obtain ⟨options, hoptions⟩ := haccepted
    cases hoptions
  | ok options =>
    rw [hasked] at hdebug
    obtain ⟨result, served, hserved⟩ := Registry.exists_serves (known host) about
      (((known host).command about).name :: words) start
    obtain ⟨served', hserved', halike⟩ :=
      hserved.debugging (Registry.quiet_of_optionsOf h hasked) hasked hdebug
    have husage : ∀ error, result ≠ .error (.usage error) := by
      intro error hresult
      cases hasked.symm.trans ((hserved.usage_iff error).1 hresult)
    have hquiet : quiet = _ :=
      (endOf_runOn hserved).trans (conclude_accepted ((known host).command about) husage served)
    have hloud : loud = _ :=
      (endOf_runOn hserved').trans (conclude_accepted ((known host).command about) husage served')
    rw [hquiet, hloud]
    refine ⟨rfl, halike.standardOutput, halike.store, hdebug, fun _ => ⟨halike.log, ?_⟩⟩
    refine ⟨finalOf result, ?_, ?_, fun hexit => ?_, fun hexit => ?_⟩
    · exact congrArg (· ++ finalOf result) (halike.loudErrors.trans (shown_debug _))
    · exact congrArg (· ++ finalOf result) (halike.quietErrors.trans (shown_info _))
    · rcases exitOf_eq_success_iff.1 hexit with rfl | hhelp | hversion
      · rfl
      · exact absurd hhelp (husage _)
      · exact absurd hversion (husage _)
    · obtain ⟨failure, rfl⟩ := exitOf_eq_failure_iff.1 hexit
      exact ⟨failure, rfl⟩

def unreading : Host Text where
  read _ := Run.fail (.reported ["Not read"])
  write _ text := pure text

/-- The failure of a chunk is shown in either run. -/
theorem debug_shows_only_of_failed_chunk :
    let words := ["--mlir-to-mlir".toList, "--split-input-file".toList]
    let start := Setting.fresh (.ok (Text.encode ['a'])) none Storage.Directory.empty
    let quiet := endOf (runOn unreading words) start
    let loud := endOf (runOn unreading (debugWord :: words)) start
    debugWord ∉ words ∧ loud.1 = .failure ∧ loud.2.log = quiet.2.log ∧
      ∃ final, quiet.2.errors =
        (Event.chunkFailed 0 (.reported ["Not read"])).render ++ final := by
  intro words start quiet loud
  have hfree : debugWord ∉ words := by decide
  have hserved : Served unreading words start (.error (.failure (.chunksFailed 1 1))) _ :=
    .failed rfl ((Setting.source_eq_ok_iff ..).2 rfl) rfl
  obtain ⟨hexit, -, -, -, hshown⟩ := debug_shows_only unreading hfree (.ok (Text.encode ['a'])) none
    Storage.Directory.empty
  obtain ⟨hlog, final, -, herrors, -⟩ := hshown ⟨_, rfl⟩
  refine ⟨hfree, hexit.trans (exit_eq_exitOf hserved), ?_, final, ?_⟩
  · subst loud quiet start
    exact hlog
  · subst quiet
    rw [herrors, endOf_runOn hserved]
    rfl

end Tool

end IrConvert
