import IrConvert.Service

namespace IrConvert

open Storage (Endpoint Store)

variable {σ α β : Type}

namespace Setting

def emitAll (setting : Setting σ) (log : List Event) : Setting σ := log.foldl emit setting

@[simp] theorem store_emit (setting : Setting σ) (event : Event) :
    (setting.emit event).store = setting.store := rfl

@[simp] theorem standardOutput_emit (setting : Setting σ) (event : Event) :
    (setting.emit event).standardOutput = setting.standardOutput := rfl

@[simp] theorem outputFault?_emit (setting : Setting σ) (event : Event) :
    (setting.emit event).outputFault? = setting.outputFault? := rfl

@[simp] theorem log_emit (setting : Setting σ) (event : Event) :
    (setting.emit event).log = setting.log ++ [event] := rfl

@[simp] theorem store_emitAll (setting : Setting σ) (log : List Event) :
    (setting.emitAll log).store = setting.store := by
  induction log generalizing setting with
  | nil => rfl
  | cons event log ih => exact ih (setting.emit event)

@[simp] theorem standardOutput_emitAll (setting : Setting σ) (log : List Event) :
    (setting.emitAll log).standardOutput = setting.standardOutput := by
  induction log generalizing setting with
  | nil => rfl
  | cons event log ih => exact ih (setting.emit event)

@[simp] theorem outputFault?_emitAll (setting : Setting σ) (log : List Event) :
    (setting.emitAll log).outputFault? = setting.outputFault? := by
  induction log generalizing setting with
  | nil => rfl
  | cons event log ih => exact ih (setting.emit event)

@[simp] theorem log_emitAll (setting : Setting σ) (log : List Event) :
    (setting.emitAll log).log = setting.log ++ log := by
  induction log generalizing setting with
  | nil => exact (List.append_nil _).symm
  | cons event log ih =>
    have hrest := ih (setting.emit event)
    rw [log_emit, List.append_assoc, List.singleton_append] at hrest
    exact hrest

variable [Store σ]

def bytesOf (setting : Setting σ) : Endpoint → Except Storage.Fault ByteArray
  | .standard => setting.standardInput
  | .file path => Store.read setting.store path

/-- What an input has to say, if it can be read and is text. -/
def source (setting : Setting σ) (input : Endpoint) : Except Failure Text :=
  match setting.bytesOf input with
  | .error fault => .error (.notRead input fault)
  | .ok bytes =>
    match Text.decode? bytes with
    | some text => .ok text
    | none => .error (.notRead input .notUtf8)

theorem source_eq_ok_iff (setting : Setting σ) (input : Endpoint) (text : Text) :
    setting.source input = .ok text ↔ setting.bytesOf input = .ok text.encode := by
  unfold source
  cases setting.bytesOf input with
  | error fault => simp
  | ok bytes =>
    dsimp only
    rw [Except.ok.injEq, ← Text.decode?_eq_some_iff]
    cases Text.decode? bytes <;> simp

/-- The setting in which a text has come to an output, if it could be written. -/
def written (setting : Setting σ) (text : Text) (output : Endpoint) :
    Except Failure (Setting σ) :=
  match output with
  | .standard =>
    match setting.outputFault? with
    | none => .ok { setting with standardOutput := setting.standardOutput ++ text }
    | some fault => .error (.notWritten output fault)
  | .file path =>
    match Store.write setting.store path text.encode with
    | .ok store => .ok { setting with store }
    | .error fault => .error (.notWritten output fault)

end Setting

namespace Service

/-- The result of an action in a setting, and the setting after it. -/
def resultOf (action : ExceptT Stop (StateM (Setting σ)) α) (setting : Setting σ) :
    Except Stop α × Setting σ :=
  (action.run.run setting).run

theorem resultOf_bind (action : ExceptT Stop (StateM (Setting σ)) α)
    (next : α → ExceptT Stop (StateM (Setting σ)) β) (setting : Setting σ) :
    resultOf (action >>= next) setting =
      match resultOf action setting with
      | (.ok value, setting) => resultOf (next value) setting
      | (.error stop, setting) => (.error stop, setting) := by
  show ExceptT.bindCont next (resultOf action setting).1 (resultOf action setting).2 = _
  rcases resultOf action setting with ⟨result, after⟩
  cases result <;> rfl

theorem resultOf_emit [Store σ] (event : Event) (setting : Setting σ) :
    resultOf (emit event) setting = (.ok (), setting.emit event) := rfl

theorem resultOf_emitAll [Store σ] (log : List Event) (setting : Setting σ) :
    resultOf (log.forM emit) setting = (.ok (), setting.emitAll log) := by
  induction log generalizing setting with
  | nil => rfl
  | cons event log ih =>
    show resultOf (emit event >>= fun _ => log.forM emit) setting = _
    rw [resultOf_bind, resultOf_emit]
    exact ih (setting.emit event)

theorem resultOf_readSource [Store σ] (input : Endpoint) (setting : Setting σ) :
    resultOf (readSource input) setting =
      ((setting.source input).mapError Stop.failure, setting) := by
  have hread : resultOf (liftM (readBytes input : StateM (Setting σ) _)) setting =
      (.ok (setting.bytesOf input), setting) := by
    cases input <;> rfl
  rw [readSource, resultOf_bind, hread, Setting.source]
  cases setting.bytesOf input with
  | error fault => rfl
  | ok bytes =>
    dsimp only
    cases Text.decode? bytes <;> rfl

theorem resultOf_perform [Store σ] (run : Run α) (setting : Setting σ) :
    resultOf (perform run) setting =
      match run.outcome with
      | .done value => (.ok value, setting.emitAll run.log)
      | .failed failure => (.error (.failure failure), setting.emitAll run.log)
      | .crashed => (.error .crash, setting.emitAll run.log) := by
  rw [perform, resultOf_bind, resultOf_emitAll]
  dsimp only
  cases run.outcome <;> rfl

theorem resultOf_writeOutput [Store σ] (text : Text) (output : Endpoint) (setting : Setting σ) :
    resultOf (writeOutput text output) setting =
      match setting.written text output with
      | .ok setting => (.ok (), setting)
      | .error failure => (.error (.failure failure), setting) := by
  rw [writeOutput, resultOf_bind]
  cases output with
  | standard =>
    have hwrite : resultOf (liftM (writeText text .standard : StateM (Setting σ) _)) setting =
        (.ok (setting.writeStandard text).1, (setting.writeStandard text).2) := rfl
    rw [hwrite, Setting.writeStandard, Setting.written]
    cases setting.outputFault? <;> rfl
  | file path =>
    have hwrite : resultOf (liftM (writeText text (.file path) : StateM (Setting σ) _)) setting =
        (.ok (setting.writeFile path text).1, (setting.writeFile path text).2) := rfl
    rw [hwrite, Setting.writeFile, Setting.written]
    cases Store.write setting.store path text.encode <;> rfl

end Service

namespace Registry

variable [Store σ] {registry : Registry} {about : Text} {arguments : List Text}

def readingFrom (options : Options) (setting : Setting σ) : Setting σ :=
  { setting with shownFrom := options.shownFrom }.emit (.reading options.input)

def convertedFrom (registry : Registry) (options : Options) (source : Text)
    (setting : Setting σ) : Setting σ :=
  (readingFrom options setting).emitAll (registry.convert options source).log

def writingFrom (registry : Registry) (options : Options) (source : Text)
    (setting : Setting σ) : Setting σ :=
  (registry.convertedFrom options source setting).emit (.writing options.output)

/-- How a request ends, and the setting after it. -/
inductive Serves (registry : Registry) (about : Text) (arguments : List Text)
    (setting : Setting σ) : Except Stop Unit → Setting σ → Prop where
  | refused {stop : Stop}
      (asked : registry.optionsOf (registry.command about) arguments = .error stop) :
      Serves registry about arguments setting (.error stop) setting
  | unread {options : Options} {failure : Failure}
      (asked : registry.optionsOf (registry.command about) arguments = .ok options)
      (given : setting.source (.ofWord options.input) = .error failure) :
      Serves registry about arguments setting (.error (.failure failure))
        (readingFrom options setting)
  | failed {options : Options} {source : Text} {failure : Failure}
      (asked : registry.optionsOf (registry.command about) arguments = .ok options)
      (given : setting.source (.ofWord options.input) = .ok source)
      (converted : (registry.convert options source).outcome = .failed failure) :
      Serves registry about arguments setting (.error (.failure failure))
        (registry.convertedFrom options source setting)
  | crashed {options : Options} {source : Text}
      (asked : registry.optionsOf (registry.command about) arguments = .ok options)
      (given : setting.source (.ofWord options.input) = .ok source)
      (converted : (registry.convert options source).outcome = .crashed) :
      Serves registry about arguments setting (.error .crash)
        (registry.convertedFrom options source setting)
  | unwritten {options : Options} {source text : Text} {failure : Failure}
      (asked : registry.optionsOf (registry.command about) arguments = .ok options)
      (given : setting.source (.ofWord options.input) = .ok source)
      (converted : (registry.convert options source).outcome = .done text)
      (output : (registry.writingFrom options source setting).written text
        (.ofWord options.output) = .error failure) :
      Serves registry about arguments setting (.error (.failure failure))
        (registry.writingFrom options source setting)
  | written {options : Options} {source text : Text} {after : Setting σ}
      (asked : registry.optionsOf (registry.command about) arguments = .ok options)
      (given : setting.source (.ofWord options.input) = .ok source)
      (converted : (registry.convert options source).outcome = .done text)
      (output : (registry.writingFrom options source setting).written text
        (.ofWord options.output) = .ok after) :
      Serves registry about arguments setting (.ok ()) after

open Service

/-- Of a command line that is refused nothing else is asked. -/
theorem serve_of_refused {m : Type → Type} [Monad m] [LawfulMonad m] [Surroundings m] {stop : Stop}
    (h : registry.optionsOf (registry.command about) arguments = .error stop) :
    (registry.serve about arguments : ExceptT Stop m Unit) = throw stop := by
  unfold serve
  rw [h]
  apply ExceptT.ext
  simp [ExceptT.run_bind]

/-- What is left of a request once its options are known. -/
theorem resultOf_serve_of_options {options : Options}
    (asked : registry.optionsOf (registry.command about) arguments = .ok options)
    (setting : Setting σ) :
    resultOf (registry.serve about arguments) setting =
      resultOf (do
        let source ← readSource (.ofWord options.input)
        let output ← perform (registry.convert options source)
        emit (.writing options.output)
        writeOutput output (.ofWord options.output)) (readingFrom options setting) := by
  rw [serve, resultOf_bind, asked]
  rfl

theorem source_readingFrom (options : Options) (setting : Setting σ) (input : Endpoint) :
    (readingFrom options setting).source input = setting.source input := by
  cases input <;> rfl

/-- What is left of a request once its source is known. -/
theorem resultOf_serve_of_source {options : Options} {source : Text} {setting : Setting σ}
    (asked : registry.optionsOf (registry.command about) arguments = .ok options)
    (given : setting.source (.ofWord options.input) = .ok source) :
    resultOf (registry.serve about arguments) setting =
      match (registry.convert options source).outcome with
      | .done text =>
        resultOf (writeOutput text (.ofWord options.output))
          (registry.writingFrom options source setting)
      | .failed failure =>
        (.error (.failure failure), registry.convertedFrom options source setting)
      | .crashed => (.error .crash, registry.convertedFrom options source setting) := by
  rw [resultOf_serve_of_options asked, resultOf_bind, resultOf_readSource, source_readingFrom,
    given]
  dsimp only [Except.mapError]
  rw [resultOf_bind, resultOf_perform]
  cases (registry.convert options source).outcome with
  | done text => rfl
  | failed failure => rfl
  | crashed => rfl

theorem resultOf_serve {setting after : Setting σ} {result : Except Stop Unit}
    (h : Serves registry about arguments setting result after) :
    resultOf (registry.serve about arguments) setting = (result, after) := by
  cases h with
  | refused asked =>
    rw [serve, resultOf_bind, asked]
    rfl
  | unread asked given =>
    rw [resultOf_serve_of_options asked, resultOf_bind, resultOf_readSource, source_readingFrom,
      given]
    rfl
  | failed asked given converted => rw [resultOf_serve_of_source asked given, converted]
  | crashed asked given converted => rw [resultOf_serve_of_source asked given, converted]
  | unwritten asked given converted output =>
    rw [resultOf_serve_of_source asked given, converted]
    dsimp only
    rw [resultOf_writeOutput, output]
  | written asked given converted output =>
    rw [resultOf_serve_of_source asked given, converted]
    dsimp only
    rw [resultOf_writeOutput, output]

/-- Every request ends in one of these ways. -/
theorem exists_serves (registry : Registry) (about : Text) (arguments : List Text)
    (setting : Setting σ) :
    ∃ result after, Serves registry about arguments setting result after := by
  cases asked : registry.optionsOf (registry.command about) arguments with
  | error stop => exact ⟨_, _, .refused asked⟩
  | ok options =>
    cases given : setting.source (.ofWord options.input) with
    | error failure => exact ⟨_, _, .unread asked given⟩
    | ok source =>
      cases converted : (registry.convert options source).outcome with
      | failed failure => exact ⟨_, _, .failed asked given converted⟩
      | crashed => exact ⟨_, _, .crashed asked given converted⟩
      | done text =>
        cases output : (registry.writingFrom options source setting).written text
            (.ofWord options.output) with
        | error failure => exact ⟨_, _, .unwritten asked given converted output⟩
        | ok after => exact ⟨_, _, .written asked given converted output⟩

theorem serves_iff {setting after : Setting σ} {result : Except Stop Unit} :
    Serves registry about arguments setting result after ↔
      resultOf (registry.serve about arguments) setting = (result, after) := by
  constructor
  · exact resultOf_serve
  · intro h
    obtain ⟨result', after', hserves⟩ := exists_serves registry about arguments setting
    rw [resultOf_serve hserves] at h
    obtain ⟨rfl, rfl⟩ := Prod.mk.inj h
    exact hserves

end Registry

end IrConvert
