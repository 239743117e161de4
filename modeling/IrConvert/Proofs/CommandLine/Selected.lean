import IrConvert.Proofs.CommandLine.Raised

namespace IrConvert

namespace CommandLine

instance (words : List Text) (name : Text) : Decidable (Raises words name) :=
  inferInstanceAs (Decidable (∃ word ∈ optionWords words, Word.ofText word = .long name none))

/-- Demands on groups are no matter of flags. -/
theorem Command.HasFlag.relaxed {command : Command} {name : Text} (h : command.HasFlag name) :
    command.relaxed.HasFlag name := ⟨h.found, h.only⟩

end CommandLine

open CommandLine

namespace Registry

variable {registry : Registry} {about : Text}

theorem hasFlag_of_mem_names {name : Text} (h : name ∈ registry.names) :
    (registry.command about).HasFlag name := by
  constructor
  · obtain ⟨description, hmem⟩ := @flag_mem_allArguments registry about name h
    have hsome : ((registry.command about).ofLong? name).isSome = true :=
      List.find?_isSome.2 ⟨_, hmem, beq_self_eq_true _⟩
    obtain ⟨argument, hfound⟩ := Option.isSome_iff_exists.1 hsome
    have hlong := List.find?_some hfound
    obtain ⟨description, rfl⟩ :=
      eq_flag_of_mem_names h (List.mem_of_find?_eq_some hfound) (.inr (eq_of_beq hlong))
    exact ⟨_, hfound, rfl, rfl⟩
  · intro argument hmem hid
    obtain ⟨description, rfl⟩ := eq_flag_of_mem_names h hmem (.inl hid)
    exact ⟨rfl, rfl, rfl⟩

/-- The names of the converters whose flags are raised, in order. -/
def selected (registry : Registry) (words : List Text) : List Text :=
  registry.names.filter fun name => Raises words.tail name

variable {words : List Text}

theorem mem_selected_iff {name : Text} :
    name ∈ registry.selected words ↔ name ∈ registry.names ∧ Raises words.tail name := by
  rw [selected, List.mem_filter, decide_eq_true_iff]

theorem pairwise_selected (registry : Registry) (words : List Text) :
    (registry.selected words).Pairwise (· < ·) := registry.pairwise_names.filter _

/-- The order of the words does not matter. -/
theorem selected_congr {words' : List Text}
    (h : ∀ name, name ∈ registry.selected words ↔ name ∈ registry.selected words') :
    registry.selected words = registry.selected words' := by
  refine List.filter_congr fun name hname => ?_
  have hiff := h name
  rw [mem_selected_iff, mem_selected_iff, and_iff_right hname, and_iff_right hname] at hiff
  exact decide_eq_decide.2 hiff

/-- Words that are accepted raise what can be read off them. -/
theorem filter_flags_eq_selected {command : Command} {given : Given}
    (hflag : ∀ name ∈ registry.names, command.HasFlag name)
    (h : command.read words = .ok given) :
    registry.names.filter given.flags.contains = registry.selected words := by
  obtain ⟨hread, -⟩ := Command.read_eq_ok_iff.1 h
  refine List.filter_congr fun name hname => ?_
  rw [Bool.eq_iff_iff, List.contains_iff_mem, decide_eq_true_iff]
  exact Command.mem_flags_of_readWords (hflag name hname) hread

def choice (registry : Registry) (given : Given) : Except Text Text :=
  ((registry.options given).map (·.converter)).mapError Failure.message

def choiceOf : List Text → Except Text Text
  | [] => .error "No translation selected".toList
  | [name] => .ok name
  | names => .error
    ("Only one translation can be selected, got: ".toList ++ Text.joinWith ", ".toList names)

theorem message_severalSelected (names : List Text) :
    (Failure.severalSelected names).message =
      "Only one translation can be selected, got: ".toList ++ Text.joinWith ", ".toList names := by
  simp [Failure.message, Failure.causes, Text.joinWith]

theorem choice_eq (registry : Registry) (given : Given) :
    registry.choice given = choiceOf (registry.names.filter given.flags.contains) := by
  rw [choice, options]
  cases registry.names.filter given.flags.contains with
  | nil => rfl
  | cons first others =>
    cases others with
    | nil => rfl
    | cons second others => exact congrArg Except.error (message_severalSelected _)

theorem selected_of_options {given : Given} {options : Options}
    (h : registry.options given = .ok options) :
    registry.names.filter given.flags.contains = [options.converter] := by
  rw [Registry.options] at h
  split at h
  · cases h
  · next name hone =>
    obtain rfl := Except.ok.inj h
    exact hone
  · cases h

/-- How far a command line comes. -/
theorem optionsOf_cases (registry : Registry) (command : Command) (words : List Text) :
    registry.optionsOf command words = .error .crash ∨
    (∃ error, registry.optionsOf command words = .error (.usage error)) ∨
    ∃ given, command.read words = .ok given ∧
      registry.optionsOf command words = (registry.options given).mapError .failure := by
  by_cases hids : command.ids.Nodup
  · rw [optionsOf_eq hids]
    cases command.read words with
    | error error => exact .inr (.inl ⟨error, rfl⟩)
    | ok given => exact .inr (.inr ⟨given, rfl, rfl⟩)
  · exact .inl (optionsOf_of_clash hids words)

theorem exists_of_optionsOf {command : Command} {options : Options}
    (h : registry.optionsOf command words = .ok options) :
    ∃ given, command.read words = .ok given ∧ registry.options given = .ok options := by
  rcases registry.optionsOf_cases command words with hcrash | ⟨error, husage⟩ | ⟨given, hread, hof⟩
  · cases hcrash.symm.trans h
  · cases husage.symm.trans h
  · exact ⟨given, hread, mapError_eq_ok_iff.1 (hof.symm.trans h)⟩

/-- Only the number of converters can fail. -/
theorem failure_of_options {given : Given} {failure : Failure}
    (h : registry.options given = .error failure) :
    failure = .noneSelected ∨ ∃ names, failure = .severalSelected names := by
  rw [options] at h
  split at h
  · exact .inl (Except.error.inj h).symm
  · cases h
  · exact .inr ⟨_, (Except.error.inj h).symm⟩

theorem failure_of_optionsOf {command : Command} {failure : Failure}
    (h : registry.optionsOf command words = .error (.failure failure)) :
    failure = .noneSelected ∨ ∃ names, failure = .severalSelected names := by
  rcases registry.optionsOf_cases command words with hcrash | ⟨error, husage⟩ | ⟨given, -, hof⟩
  · cases hcrash.symm.trans h
  · cases husage.symm.trans h
  · obtain ⟨cause, hcause, hfailure⟩ := mapError_eq_error_iff.1 (hof.symm.trans h)
    obtain rfl := Stop.failure.inj hfailure
    exact failure_of_options hcause

/-- Both forms of the command have the flags of the converters. -/
theorem hasFlag_of_mem_forms {asked : Command}
    (h : asked ∈ [registry.command about, (registry.command about).relaxed]) :
    ∀ name ∈ registry.names, asked.HasFlag name := by
  intro name hname
  rcases List.mem_cons.1 h with rfl | h
  · exact hasFlag_of_mem_names hname
  · rw [List.mem_singleton.1 h]
    exact (hasFlag_of_mem_names hname).relaxed

/-- Options are for the only converter that is selected. -/
theorem selected_of_optionsOf {asked : Command} {options : Options}
    (hasked : asked ∈ [registry.command about, (registry.command about).relaxed])
    (h : registry.optionsOf asked words = .ok options) :
    registry.selected words = [options.converter] := by
  obtain ⟨given, hread, hoptions⟩ := exists_of_optionsOf h
  rw [← filter_flags_eq_selected (hasFlag_of_mem_forms hasked) hread]
  exact selected_of_options hoptions

end Registry

end IrConvert
