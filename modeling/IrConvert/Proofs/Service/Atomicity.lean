import IrConvert.Proofs.Conversion.Split
import IrConvert.Proofs.Service.Steps
import IrConvert.Proofs.Storage.Lawful

namespace IrConvert

open Service (resultOf)
open Storage (Endpoint LawfulStore Replaced Store)

variable {σ : Type}

namespace Registry

section Converted

variable (registry : Registry) (options : Options) (source : Text) (setting : Setting σ)

@[simp] theorem standardOutput_convertedFrom :
    (registry.convertedFrom options source setting).standardOutput = setting.standardOutput := by
  simp [convertedFrom, readingFrom]

@[simp] theorem store_convertedFrom :
    (registry.convertedFrom options source setting).store = setting.store := by
  simp [convertedFrom, readingFrom]

@[simp] theorem log_convertedFrom :
    (registry.convertedFrom options source setting).log =
      setting.log ++ .reading options.input :: (registry.convert options source).log := by
  simp [convertedFrom, readingFrom]

@[simp] theorem outputFault?_convertedFrom :
    (registry.convertedFrom options source setting).outputFault? = setting.outputFault? := by
  simp [convertedFrom, readingFrom]

@[simp] theorem outputFault?_writingFrom :
    (registry.writingFrom options source setting).outputFault? = setting.outputFault? := by
  simp [writingFrom]

@[simp] theorem store_writingFrom :
    (registry.writingFrom options source setting).store = setting.store := by
  simp [writingFrom]

end Converted

variable [Store σ] {registry : Registry} {about : Text} {arguments : List Text}
  {setting after : Setting σ}

theorem Serves.untouched {stop : Stop}
    (h : Serves registry about arguments setting (.error stop) after) :
    after.standardOutput = setting.standardOutput ∧ after.store = setting.store := by
  cases h with
  | refused asked => exact ⟨rfl, rfl⟩
  | unread asked given => exact ⟨rfl, rfl⟩
  | failed asked given converted => simp
  | crashed asked given converted => simp
  | unwritten asked given converted output => simp [writingFrom]

end Registry

namespace Setting

variable [Store σ]

theorem written_ofWord_eq_ok_iff (setting after : Setting σ) (text word : Text) :
    setting.written text (.ofWord word) = .ok after ↔
      word = ['-'] ∧ setting.outputFault? = none ∧
        after = { setting with standardOutput := setting.standardOutput ++ text } ∨
      word ≠ ['-'] ∧ ∃ store, Store.write setting.store word text.encode = .ok store ∧
        after = { setting with store } := by
  unfold Endpoint.ofWord
  by_cases hword : word = ['-']
  · rw [if_pos hword, written]
    cases setting.outputFault? with
    | none => simp [hword, eq_comm]
    | some fault => simp [hword]
  · rw [if_neg hword, written]
    cases Store.write setting.store word text.encode with
    | error fault => simp [hword]
    | ok store => simp [hword, eq_comm]

/-- The bytes that a word on the command line stands for. -/
theorem bytesOf_fresh (stdin : Except Storage.Fault ByteArray)
    (outputFault? : Option Storage.Fault) (files : σ) (word : Text) :
    (fresh stdin outputFault? files).bytesOf (.ofWord word) =
      if word = ['-'] then stdin else Store.read files word := by
  unfold Endpoint.ofWord
  by_cases hword : word = ['-']
  · rw [if_pos hword, if_pos hword]
    rfl
  · rw [if_neg hword, if_neg hword]
    rfl

end Setting

namespace Registry

variable [Store σ] {registry : Registry} {about : Text} {arguments : List Text}
  {setting after : Setting σ}

theorem Serves.log_eq {options : Options} {result : Except Stop Unit}
    (h : Serves registry about arguments setting result after)
    (asked : registry.optionsOf (registry.command about) arguments = .ok options) :
    after.log = setting.log ++ .reading options.input ::
      match setting.source (.ofWord options.input) with
      | .error _ => []
      | .ok source => (registry.convert options source).log ++
        match (registry.convert options source).outcome with
        | .done _ => [.writing options.output]
        | _ => [] := by
  cases h with
  | refused asked' => rw [asked] at asked'; cases asked'
  | unread asked' given =>
    rw [asked] at asked'
    obtain rfl := Except.ok.inj asked'
    rw [given]
    rfl
  | failed asked' given converted =>
    rw [asked] at asked'
    obtain rfl := Except.ok.inj asked'
    simp [given, converted]
  | crashed asked' given converted =>
    rw [asked] at asked'
    obtain rfl := Except.ok.inj asked'
    simp [given, converted]
  | unwritten asked' given converted output =>
    rw [asked] at asked'
    obtain rfl := Except.ok.inj asked'
    simp [writingFrom, given, converted]
  | written asked' given converted output =>
    rw [asked] at asked'
    obtain rfl := Except.ok.inj asked'
    rw [given]
    rcases (Setting.written_ofWord_eq_ok_iff ..).1 output with
      ⟨-, -, rfl⟩ | ⟨-, store, -, rfl⟩ <;>
      simp [writingFrom, converted]

theorem Serves.ok_iff {result : Except Stop Unit}
    (h : Serves registry about arguments setting result after) :
    result = .ok () ↔ ∃ options source text,
      registry.optionsOf (registry.command about) arguments = .ok options ∧
      setting.source (.ofWord options.input) = .ok source ∧
      (registry.convert options source).outcome = .done text ∧
      ∃ end', (registry.writingFrom options source setting).written text (.ofWord options.output) =
        .ok end' := by
  constructor
  · intro hok
    subst hok
    cases h with
    | written asked given converted output => exact ⟨_, _, _, asked, given, converted, _, output⟩
  · intro hstages
    -- a request has one ending, and with all stages passed it is this one
    obtain ⟨options, source, text, asked, given, converted, end', output⟩ := hstages
    have hend := resultOf_serve (.written asked given converted output)
    rw [resultOf_serve h] at hend
    exact congrArg Prod.fst hend

/-- What a request that ends well has written, in terms of the one write that it made. -/
theorem Serves.completed (h : Serves registry about arguments setting (.ok ()) after) :
    ∃ options source text,
      registry.optionsOf (registry.command about) arguments = .ok options ∧
      setting.source (.ofWord options.input) = .ok source ∧
      (registry.convert options source).outcome = .done text ∧
      (options.output = ['-'] ∧ setting.outputFault? = none ∧
          after.standardOutput = setting.standardOutput ++ text ∧ after.store = setting.store ∨
        options.output ≠ ['-'] ∧ after.standardOutput = setting.standardOutput ∧
          Store.write setting.store options.output text.encode = .ok after.store) := by
  cases h with
  | written asked given converted output =>
    refine ⟨_, _, _, asked, given, converted, ?_⟩
    -- up to the output only the log has grown, so the store is still the one there was
    rcases (Setting.written_ofWord_eq_ok_iff ..).1 output with
      ⟨hword, hfault, rfl⟩ | ⟨hword, store, hwrite, rfl⟩
    · rw [outputFault?_writingFrom] at hfault
      exact .inl ⟨hword, hfault, by simp [writingFrom], by simp [writingFrom]⟩
    · rw [store_writingFrom] at hwrite
      exact .inr ⟨hword, by simp [writingFrom], hwrite⟩

/-- The text of a request that ends well has come to its output and to nothing else. -/
theorem Serves.landed [LawfulStore σ]
    (h : Serves registry about arguments setting (.ok ()) after) :
    ∃ options source text,
      registry.optionsOf (registry.command about) arguments = .ok options ∧
      setting.source (.ofWord options.input) = .ok source ∧
      (registry.convert options source).outcome = .done text ∧
      (options.output = ['-'] ∧ setting.outputFault? = none ∧
          after.standardOutput = setting.standardOutput ++ text ∧ after.store = setting.store ∨
        options.output ≠ ['-'] ∧ after.standardOutput = setting.standardOutput ∧
          Replaced setting.store after.store options.output text.encode) := by
  obtain ⟨options, source, text, asked, given, converted, hout⟩ := h.completed
  refine ⟨options, source, text, asked, given, converted, ?_⟩
  rcases hout with hstandard | ⟨hword, hnothing, hwrite⟩
  · exact .inl hstandard
  · exact .inr ⟨hword, hnothing, Storage.replaced_of_write hwrite⟩

theorem exists_written_iff (options : Options) (source text : Text) (setting : Setting σ) :
    (∃ end', (registry.writingFrom options source setting).written text (.ofWord options.output) =
        .ok end') ↔
      options.output = ['-'] ∧ setting.outputFault? = none ∨ options.output ≠ ['-'] ∧
        ∃ store, Store.write setting.store options.output text.encode = .ok store := by
  simp only [Setting.written_ofWord_eq_ok_iff, outputFault?_writingFrom, store_writingFrom]
  by_cases hword : options.output = ['-']
  · simp [hword]
  · simp [hword]

/-- A request does all that it was asked for or nothing. What it read is what there was before it
wrote anything, so its output may go where its input came from. -/
theorem serve_all_or_nothing [LawfulStore σ] (registry : Registry) (about : Text)
    (arguments : List Text) (stdin : Except Storage.Fault ByteArray)
    (outputFault? : Option Storage.Fault) (files : σ) :
    let start := Setting.fresh stdin outputFault? files
    let asked := registry.optionsOf (registry.command about) arguments
    let given := fun input : Text => if input = ['-'] then stdin else Store.read files input
    let result := (resultOf (registry.serve about arguments) start).1
    let after := (resultOf (registry.serve about arguments) start).2
    (∀ stop, result = .error stop → after.standardOutput = [] ∧ after.store = files) ∧
    (result = .ok () ↔ ∃ options source text, asked = .ok options ∧
      given options.input = .ok source.encode ∧
      (registry.convert options source).outcome = .done text ∧
      (options.output = ['-'] ∧ outputFault? = none ∨ options.output ≠ ['-'] ∧
        ∃ files', Store.write files options.output text.encode = .ok files')) ∧
    (result = .ok () → ∃ options source text, asked = .ok options ∧
      given options.input = .ok source.encode ∧
      (registry.convert options source).outcome = .done text ∧
      (options.output = ['-'] ∧ outputFault? = none ∧ after.standardOutput = text ∧
          after.store = files ∨
        options.output ≠ ['-'] ∧ after.standardOutput = [] ∧
          Replaced files after.store options.output text.encode)) ∧
    (∀ stop, asked = .error stop → result = .error stop ∧ after.log = []) ∧
    ∀ options, asked = .ok options →
      let reading := (Level.debug, "Reading input from ".toList ++ options.input)
      let writing := (Level.debug, "Writing output to ".toList ++ options.output)
      ((∀ source : Text, given options.input ≠ .ok source.encode) →
        after.log.map Event.shown = [reading]) ∧
      ∀ source, given options.input = .ok source.encode →
        after.log.map Event.shown =
          reading :: (registry.convert options source).log.map Event.shown ++
            match (registry.convert options source).outcome with
            | .done _ => [writing]
            | _ => [] := by
  intro start asked given result after
  have hserves : Serves registry about arguments start result after := serves_iff.2 rfl
  have hgiven : ∀ input source, start.source (.ofWord input) = .ok source ↔
      given input = .ok source.encode := by
    intro input source
    rw [Setting.source_eq_ok_iff, Setting.bytesOf_fresh]
  refine ⟨fun stop hstop => ?_, ?_, fun hok => ?_, fun stop hasked => ?_,
    fun options hasked => ⟨fun hunread => ?_, fun source hread => ?_⟩⟩
  · rw [hstop] at hserves
    exact hserves.untouched
  · rw [hserves.ok_iff]
    simp only [hgiven, exists_written_iff]
    rfl
  · rw [hok] at hserves
    have hlanded := hserves.landed
    simp only [hgiven] at hlanded
    exact hlanded
  · have hend := resultOf_serve (.refused hasked : Serves registry about arguments start _ _)
    exact ⟨congrArg Prod.fst hend, congrArg (fun p => p.2.log) hend⟩
  · have hlog := hserves.log_eq hasked
    cases hsource : start.source (.ofWord options.input) with
    | error failure =>
      rw [hlog, hsource]
      rfl
    | ok source => exact absurd ((hgiven ..).1 hsource) (hunread source)
  · rw [hserves.log_eq hasked, (hgiven ..).2 hread]
    dsimp only
    rw [List.map_append, List.map_cons, List.map_append]
    cases (registry.convert options source).outcome with
    | done text => rfl
    | failed failure => rfl
    | crashed => rfl

def ontoItself (name : Text) : List Text :=
  ["tool".toList, "--pass".toList, name, "-o".toList, name]

theorem serve_all_or_nothing_onto_itself :
    let files : Storage.Directory := ⟨[(["in".toList], .file (Text.encode "a".toList))]⟩
    let after :=
      (resultOf (refusingXOnly.serve [] (ontoItself "in".toList)) (.initial .empty files)).2
    after.standardOutput = [] ∧
      Replaced files after.store "in".toList (Text.encode "a\n".toList) := by
  intro files after
  obtain ⟨-, hok, hlanded, -⟩ :=
    serve_all_or_nothing refusingXOnly [] (ontoItself "in".toList) (.ok .empty) none files
  have hdone := hok.2 ⟨{ Options.forConverter "pass".toList with
    input := "in".toList, output := "in".toList }, "a".toList, "a\n".toList, rfl, rfl, rfl,
    .inr ⟨by decide, _, rfl⟩⟩
  obtain ⟨options, source, text, hasked, hread, hconverted, hout⟩ := hlanded hdone
  obtain rfl := Except.ok.inj hasked
  have hsource : (Setting.initial .empty files).source (.ofWord "in".toList) = .ok source :=
    (Setting.source_eq_ok_iff ..).2 hread
  obtain rfl : "a".toList = source := Except.ok.inj hsource
  obtain rfl : "a\n".toList = text := Outcome.done.inj hconverted
  obtain ⟨hstandard, -⟩ | ⟨-, hnothing, hreplaced⟩ := hout
  · exact absurd hstandard (by decide)
  · exact ⟨hnothing, hreplaced⟩

end Registry

end IrConvert
