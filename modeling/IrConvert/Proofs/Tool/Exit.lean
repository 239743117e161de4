import IrConvert.Proofs.CommandLine.Selection
import IrConvert.Proofs.Conversion.Gate
import IrConvert.Proofs.Service.Endings
import IrConvert.Tool

namespace IrConvert

open Storage (LawfulStore Replaced Store)

/-- The failures of those who select no converter, or one that is not known. -/
def Failure.OfSelection : Failure → Prop
  | noneSelected => True
  | severalSelected _ => True
  | unknownConverter _ => True
  | _ => False

namespace Tool

section Known

variable {Module : Type} (host : Host Module)

def known : Registry where
  converters := Builtin.converters host
  sorted := List.pairwise_pair.2 (by
    show "mlir-to-llvmir".toList < "mlir-to-mlir".toList
    decide)
  acceptable := List.forall_mem_cons.2 ⟨rfl, List.forall_mem_singleton.2 rfl⟩

/-- No converter of the tool is refused. -/
theorem registry_eq : registry host = .ok (known host) := rfl

theorem ids_known : ((known host).command about).ids.Nodup := by
  have hnames : (known host).names = ["mlir-to-llvmir".toList, "mlir-to-mlir".toList] := rfl
  rw [Registry.nodup_ids_iff, hnames]
  decide

theorem exists_target {name : Text} (h : name ∈ (known host).names) :
    ∃ target, (known host).get? name = some (Builtin.converter host target) := by
  obtain ⟨converter, hmem, hget⟩ := Registry.get?_of_mem_names h
  obtain ⟨target, -, rfl⟩ := List.mem_map.1 hmem
  exact ⟨target, hget⟩

def asked (words : List Text) : Except Stop Options :=
  (known host).optionsOf ((known host).command about) (((known host).command about).name :: words)

/-- A command line is refused for its words alone, or it selects a converter of the tool. -/
theorem asked_cases (words : List Text) :
    (∃ error, asked host words = .error (.usage error)) ∨
    ∃ options target, asked host words = .ok options ∧
      (known host).get? options.converter = some (Builtin.converter host target) := by
  rcases Registry.optionsOf_command rfl (ids_known host) _ with herror | hok
  · exact .inl herror
  · obtain ⟨options, hoptions, hmem⟩ := hok
    obtain ⟨target, hget⟩ := exists_target host hmem
    exact .inr ⟨options, target, hoptions, hget⟩

/-- The registry of the tool stops no run. -/
theorem usage_of_asked_error {words : List Text} {stop : Stop}
    (h : asked host words = .error stop) : ∃ error, stop = .usage error := by
  rcases asked_cases host words with ⟨error, herror⟩ | ⟨options, target, hok, -⟩
  · exact ⟨error, Except.error.inj (h.symm.trans herror)⟩
  · cases hok.symm.trans h

theorem asked_ne_failure (words : List Text) (failure : Failure) :
    asked host words ≠ .error (.failure failure) := by
  intro h
  obtain ⟨error, herror⟩ := usage_of_asked_error host h
  cases herror

theorem asked_ne_crash (words : List Text) : asked host words ≠ .error .crash := by
  intro h
  obtain ⟨error, herror⟩ := usage_of_asked_error host h
  cases herror

theorem exists_target_of_asked {words : List Text} {options : Options}
    (h : asked host words = .ok options) :
    ∃ target, (known host).get? options.converter = some (Builtin.converter host target) := by
  rcases asked_cases host words with ⟨error, herror⟩ | ⟨options', target, hok, hget⟩
  · cases herror.symm.trans h
  · obtain rfl := Except.ok.inj (hok.symm.trans h)
    exact ⟨target, hget⟩

variable {m : Type → Type} [Monad m] [Surroundings m]

theorem conclude_usage (command : CommandLine.Command) {error : CommandLine.UsageError}
    (hhelp : error ≠ .helpAsked) (hversion : error ≠ .versionAsked) :
    (conclude command (.error (.usage error)) : m Exit) =
      reported "the command line cannot be used, see --help" .usage := by
  cases error with
  | helpAsked => exact absurd rfl hhelp
  | versionAsked => exact absurd rfl hversion
  | _ => rfl

theorem runOn_eq (words : List Text) :
    (runOn host words : m Exit) =
      ((known host).serve about (((known host).command about).name :: words)).run >>=
        conclude ((known host).command about) := by
  rw [runOn, registry_eq]

/-- Of a command line that is refused nothing else is asked. -/
theorem runOn_of_refused [LawfulMonad m] {words : List Text} {stop : Stop}
    (h : asked host words = .error stop) :
    (runOn host words : m Exit) = conclude ((known host).command about) (.error stop) := by
  rw [asked] at h
  rw [runOn_eq, Registry.serve_of_refused h, ExceptT.run_throw, pure_bind]

end Known

theorem Exit.code_injective : Function.Injective Exit.code := by
  intro exit exit' h
  cases exit <;> cases exit' <;> simp_all [Exit.code]

def exitOf : Except Stop Unit → Exit
  | .ok () => .success
  | .error (.usage .helpAsked) => .success
  | .error (.usage .versionAsked) => .success
  | .error (.usage _) => .usage
  | .error (.failure _) => .failure
  | .error .crash => .crash

section ExitOf

variable {result : Except Stop Unit}

theorem exitOf_eq_success_iff :
    exitOf result = .success ↔ result = .ok () ∨ result = .error (.usage .helpAsked) ∨
      result = .error (.usage .versionAsked) := by
  unfold exitOf
  split <;> simp_all

theorem exitOf_eq_usage_iff :
    exitOf result = .usage ↔ ∃ error, result = .error (.usage error) ∧
      error ≠ .helpAsked ∧ error ≠ .versionAsked := by
  unfold exitOf
  split <;> simp_all

theorem exitOf_eq_failure_iff :
    exitOf result = .failure ↔ ∃ failure, result = .error (.failure failure) := by
  unfold exitOf
  split <;> simp_all

theorem exitOf_eq_crash_iff : exitOf result = .crash ↔ result = .error .crash := by
  unfold exitOf
  split <;> simp_all

end ExitOf

section Settings

variable {σ : Type}

def endOf {α : Type} (action : StateM (Setting σ) α) (setting : Setting σ) : α × Setting σ :=
  (action.run setting).run

theorem endOf_bind {α β : Type} (action : StateM (Setting σ) α) (next : α → StateM (Setting σ) β)
    (setting : Setting σ) :
    endOf (action >>= next) setting =
      endOf (next (endOf action setting).1) (endOf action setting).2 := rfl

variable [Store σ] (command : CommandLine.Command) (setting : Setting σ)

theorem fst_conclude (result : Except Stop Unit) :
    (endOf (conclude command result) setting).1 = exitOf result := by
  cases result with
  | ok value => rfl
  | error stop =>
    cases stop with
    | usage error => cases error <;> rfl
    | failure failure => rfl
    | crash => rfl

/-- Only the help text, the version and the output of a request go to standard output. -/
theorem conclude_untouched {result : Except Stop Unit} (h : exitOf result ≠ .success) :
    (endOf (conclude command result) setting).2.standardOutput = setting.standardOutput ∧
      (endOf (conclude command result) setting).2.store = setting.store := by
  cases result with
  | ok value => exact absurd rfl h
  | error stop =>
    cases stop with
    | usage error =>
      cases error with
      | helpAsked => exact absurd rfl h
      | versionAsked => exact absurd rfl h
      | _ => exact ⟨rfl, rfl⟩
    | failure failure => exact ⟨rfl, rfl⟩
    | crash => exact ⟨rfl, rfl⟩

theorem conclude_failure (failure : Failure) :
    (endOf (conclude command (.error (.failure failure))) setting).2.errors =
      setting.errors ++ ("error: " ++ failure.message ++ ['\n']) := rfl

end Settings

/-- Once a converter of the tool is selected, only its host can say that none is known. -/
theorem exists_convertRead_of_ofSelection {σ Module : Type} [Store σ] {host : Host Module}
    {options : Options} {target : Ir.Target} {setting : Setting σ} {failure : Failure}
    (hget : (known host).get? options.converter = some (Builtin.converter host target))
    (h : (known host).Hindered options setting failure) (hselection : failure.OfSelection) :
    ∃ source, (host.convertRead target source).outcome = .failed failure := by
  cases h with
  | unread given =>
    obtain ⟨fault, rfl⟩ := Setting.source_eq_error given
    exact hselection.elim
  | unprinted given converted standard output => exact hselection.elim
  | unwritten given converted file output => exact hselection.elim
  | failed given converted =>
    rcases Registry.convert_failed hget converted with
      ⟨part, -, hpart⟩ | rfl | ⟨failed, total, rfl⟩
    · rw [Builtin.convert_converter] at hpart
      cases hgate : gate part with
      | done value =>
        rw [host.convert_of_gate_done target hgate] at hpart
        exact ⟨part, hpart⟩
      | failed reason =>
        rw [host.convert_of_gate_failed target hgate] at hpart
        obtain rfl := Outcome.failed.inj hpart
        rcases eq_of_gate_failed hgate with rfl | ⟨undeclared, rfl⟩
        · exact hselection.elim
        · exact hselection.elim
      | crashed => exact absurd hgate (gate_ne_crashed part)
    · exact hselection.elim
    · exact hselection.elim

theorem Exit.code_eq_one (exit : Exit) (h : exit.code ≠ 0) (h' : exit.code ≠ 2)
    (h'' : exit.code ≠ 101) : exit.code = 1 := by
  cases exit with
  | success => exact absurd rfl h
  | failure => rfl
  | usage => exact absurd rfl h'
  | crash => exact absurd rfl h''

section Served

variable {σ Module : Type} [Store σ] {host : Host Module} {words : List Text}
  {setting served : Setting σ} {result : Except Stop Unit}

def Served (host : Host Module) (words : List Text) (setting : Setting σ)
    (result : Except Stop Unit) (served : Setting σ) : Prop :=
  (known host).Serves about (((known host).command about).name :: words) setting result served

theorem endOf_runOn (h : Served host words setting result served) :
    endOf (runOn host words) setting =
      endOf (conclude ((known host).command about) result) served := by
  have hend : endOf ((known host).serve about (((known host).command about).name :: words)).run
      setting = (result, served) := Registry.resultOf_serve h
  rw [runOn_eq, endOf_bind, hend]

theorem exit_eq_exitOf (h : Served host words setting result served) :
    (endOf (runOn host words) setting).1 = exitOf result := by
  rw [endOf_runOn h, fst_conclude]

theorem usage_iff_asked (h : Served host words setting result served) :
    exitOf result = .usage ↔ ∃ error, asked host words = .error (.usage error) ∧
      error ≠ .helpAsked ∧ error ≠ .versionAsked := by
  refine exitOf_eq_usage_iff.trans (exists_congr fun error => ?_)
  rw [Registry.Serves.usage_iff h]
  rfl

/-- Nothing but the host crashes. -/
theorem crash_iff_crashesOn (h : Served host words setting result served) :
    exitOf result = .crash ↔ ∃ options source target, asked host words = .ok options ∧
      setting.source (.ofWord options.input) = .ok source ∧
      (known host).get? options.converter = some (Builtin.converter host target) ∧
      ∃ part ∈ options.parts source, gate part = .done () ∧ host.CrashesOn target part := by
  rw [exitOf_eq_crash_iff, Registry.Serves.crash_iff h (asked_ne_crash host words)]
  constructor
  · intro hconverted
    obtain ⟨options, source, hasked, hgiven, hconverted⟩ := hconverted
    obtain ⟨target, hget⟩ := exists_target_of_asked host hasked
    rw [Registry.convert_crashed_iff hget, Builtin.convert_converter] at hconverted
    simp only [host.convert_crashed_iff target] at hconverted
    exact ⟨options, source, target, hasked, hgiven, hget, hconverted⟩
  · intro hpart
    obtain ⟨options, source, target, hasked, hgiven, hget, hpart⟩ := hpart
    refine ⟨options, source, hasked, hgiven, ?_⟩
    rw [Registry.convert_crashed_iff hget, Builtin.convert_converter]
    simp only [host.convert_crashed_iff target]
    exact hpart

theorem hindered_of_failure (h : Served host words setting result served)
    (hexit : exitOf result = .failure) :
    ∃ options failure, asked host words = .ok options ∧
      (known host).Hindered options setting failure ∧
      (endOf (runOn host words) setting).2.errors =
        served.errors ++ ("error: " ++ failure.message ++ ['\n']) := by
  obtain ⟨failure, rfl⟩ := exitOf_eq_failure_iff.1 hexit
  obtain ⟨options, hasked, hhindered⟩ :=
    (Registry.Serves.failure_iff h (asked_ne_failure host words failure)).1 rfl
  refine ⟨options, failure, hasked, hhindered, ?_⟩
  rw [endOf_runOn h, conclude_failure]

theorem untouched_of_exit_ne_success (h : Served host words setting result served)
    (hexit : exitOf result ≠ .success) :
    (endOf (runOn host words) setting).2.standardOutput = setting.standardOutput ∧
      (endOf (runOn host words) setting).2.store = setting.store := by
  obtain ⟨hstandard, hstore⟩ := conclude_untouched ((known host).command about) served hexit
  rw [endOf_runOn h, hstandard, hstore]
  cases result with
  | ok value => exact absurd rfl hexit
  | error stop => exact Registry.Serves.untouched h

/-- The words ask for the help text or the version, or all that they ask for has been done: the
output of a conversion has come to its place as a whole, and nothing else has been written. -/
def Completed [LawfulStore σ] (host : Host Module) (words : List Text) (start after : Setting σ) :
    Prop :=
  asked host words = .error (.usage .helpAsked) ∨
  asked host words = .error (.usage .versionAsked) ∨
  ∃ options source text, asked host words = .ok options ∧
    start.source (.ofWord options.input) = .ok source ∧
    ((known host).convert options source).outcome = .done text ∧
    (options.output = ['-'] ∧ start.outputFault? = none ∧
        after.standardOutput = start.standardOutput ++ text ∧ after.store = start.store ∨
      options.output ≠ ['-'] ∧ after.standardOutput = start.standardOutput ∧
        Store.write start.store options.output text.encode = .ok after.store ∧
        Replaced start.store after.store options.output text.encode)

theorem success_iff_completed [LawfulStore σ] (h : Served host words setting result served) :
    exitOf result = .success ↔
      Completed host words setting (endOf (runOn host words) setting).2 := by
  rw [exitOf_eq_success_iff]
  constructor
  · rintro (rfl | hhelp | hversion)
    · obtain ⟨options, source, text, hasked, hgiven, hconverted, hout⟩ :=
        Registry.Serves.completed h
      refine .inr (.inr ⟨options, source, text, hasked, hgiven, hconverted, ?_⟩)
      -- after a request that ended well the tool writes nothing more
      have hafter : (endOf (runOn host words) setting).2 = served :=
        congrArg Prod.snd (endOf_runOn h)
      rw [hafter]
      rcases hout with hstandard | ⟨hword, hnothing, hwrite⟩
      · exact .inl hstandard
      · exact .inr ⟨hword, hnothing, hwrite, Storage.replaced_of_write hwrite⟩
    · exact .inl ((Registry.Serves.usage_iff h _).1 hhelp)
    · exact .inr (.inl ((Registry.Serves.usage_iff h _).1 hversion))
  · rintro (hhelp | hversion | hdone)
    · exact .inr (.inl ((Registry.Serves.usage_iff h _).2 hhelp))
    · exact .inr (.inr ((Registry.Serves.usage_iff h _).2 hversion))
    · obtain ⟨options, source, text, hasked, hgiven, hconverted, hout⟩ := hdone
      refine .inl ((Registry.Serves.ok_iff h).2
        ⟨options, source, text, hasked, hgiven, hconverted, ?_⟩)
      rw [Registry.exists_written_iff]
      rcases hout with ⟨hstandard, hfault, -⟩ | ⟨hword, -, hwrite, -⟩
      · exact .inl ⟨hstandard, hfault⟩
      · exact .inr ⟨hword, _, hwrite⟩

end Served

/-- What a run ends with, and what is there after it. Nothing is written but by a run that did all
of what it was asked for, and no run is stopped by its registry or by its selection of a
converter. -/
structure Ends {σ Module : Type} [Store σ] [LawfulStore σ] (host : Host Module) (words : List Text)
    (start : Setting σ) (exit : Exit) (after : Setting σ) : Prop where
  success_iff : exit.code = 0 ↔ Completed host words start after
  usage_iff : exit.code = 2 ↔ ∃ error, asked host words = .error (.usage error) ∧
    error ≠ .helpAsked ∧ error ≠ .versionAsked
  crash_iff : exit.code = 101 ↔ ∃ options source target, asked host words = .ok options ∧
    start.source (.ofWord options.input) = .ok source ∧
    (known host).get? options.converter = some (Builtin.converter host target) ∧
    ∃ part ∈ options.parts source, gate part = .done () ∧ host.CrashesOn target part
  code_eq_one : exit.code ≠ 0 → exit.code ≠ 2 → exit.code ≠ 101 → exit.code = 1
  explained : exit.code = 1 → ∃ options failure, asked host words = .ok options ∧
    (known host).Hindered options start failure ∧
    ("error: ".toList ++ Text.joinWith ": " failure.causes ++ ['\n']) <:+ after.errors
  untouched : exit.code ≠ 0 →
    after.standardOutput = start.standardOutput ∧ after.store = start.store
  usage_only : exit.code = 2 → ∀ (m : Type → Type) [Monad m] [LawfulMonad m] [Surroundings m],
    (runOn host words : m Exit) = reported "the command line cannot be used, see --help" .usage
  registered : registry host = .ok (known host)
  selecting : ∀ failure, asked host words ≠ .error (.failure failure)
  selected : ∀ options, asked host words = .ok options →
    (∃ target, (known host).get? options.converter = some (Builtin.converter host target)) ∧
    ∀ failure, (known host).Hindered options start failure → failure.OfSelection →
      ∃ target source, (host.convertRead target source).outcome = .failed failure

/-- The exit status says how the run ended, from any setting, also one with faulty streams. -/
theorem runOn_exit_status {σ Module : Type} [Store σ] [LawfulStore σ] (host : Host Module)
    (words : List Text) (start : Setting σ) :
    Ends host words start
      (endOf (runOn host words) start).1 (endOf (runOn host words) start).2 := by
  obtain ⟨result, served, hserves⟩ := Registry.exists_serves (known host) about
    (((known host).command about).name :: words) start
  have hserved : Served host words start result served := hserves
  have hcode (status : Exit) :
      (endOf (runOn host words) start).1.code = status.code ↔ exitOf result = status := by
    rw [Exit.code_injective.eq_iff, ← exit_eq_exitOf hserved]
  have husage := (hcode .usage).trans (usage_iff_asked hserved)
  exact {
    success_iff := (hcode .success).trans (success_iff_completed hserved)
    usage_iff := husage
    crash_iff := (hcode .crash).trans (crash_iff_crashesOn hserved)
    code_eq_one := Exit.code_eq_one _
    explained := by
      intro hone
      obtain ⟨options, failure, hasked, hhindered, herrors⟩ :=
        hindered_of_failure hserved ((hcode .failure).1 hone)
      refine ⟨options, failure, hasked, hhindered, ?_⟩
      rw [herrors]
      exact List.suffix_append served.errors _
    untouched := by
      intro hne
      exact untouched_of_exit_ne_success hserved fun h => hne ((hcode .success).2 h)
    usage_only := by
      intro htwo m _ _ _
      obtain ⟨error, hasked, hhelp, hversion⟩ := husage.1 htwo
      rw [runOn_of_refused host hasked, conclude_usage _ hhelp hversion]
    registered := registry_eq host
    selecting := asked_ne_failure host words
    selected := by
      intro options hasked
      obtain ⟨target, hget⟩ := exists_target_of_asked host hasked
      exact ⟨⟨target, hget⟩, fun failure hhindered hselection =>
        ⟨target, exists_convertRead_of_ofSelection hget hhindered hselection⟩⟩ }

def crashing : Host Text where
  read _ := ⟨[], .crashed⟩
  write _ text := pure text

theorem runOn_exit_status_of_crash :
    ∃ after, endOf (runOn crashing ["--mlir-to-mlir".toList])
        (.initial (Text.encode "a".toList) Storage.Directory.empty) = (.crash, after) ∧
      after.standardOutput = [] := by
  have hends := runOn_exit_status crashing ["--mlir-to-mlir".toList]
    (.initial (Text.encode "a".toList) Storage.Directory.empty)
  have hgiven : (Setting.initial (Text.encode "a".toList) Storage.Directory.empty).source
      (.ofWord ['-']) = .ok "a".toList := (Setting.source_eq_ok_iff ..).2 rfl
  have hcode := hends.crash_iff.2 ⟨.forConverter "mlir-to-mlir".toList, "a".toList, .mlir, rfl,
    hgiven, rfl, "a".toList, List.mem_singleton_self _, rfl, .inl rfl⟩
  refine ⟨_, Prod.ext (Exit.code_injective hcode) rfl, (hends.untouched ?_).1⟩
  rw [hcode]
  decide

end Tool

end IrConvert
