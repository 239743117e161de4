import IrConvert.Proofs.CommandLine.Arguments
import IrConvert.Proofs.Except
import Mathlib.Data.List.Basic

namespace IrConvert

namespace CommandLine

def Argument.HasValue (argument : Argument) : Prop :=
  argument.takesValue = true ∨ argument.isPositional = true

/-- Flags and values are given for arguments of the command that can have them. -/
structure Given.Fits (command : Command) (given : Given) : Prop where
  flags : ∀ id ∈ given.flags,
    ∃ argument ∈ command.allArguments, argument.id = id ∧ argument.action = .raiseFlag
  values : ∀ entry ∈ given.values,
    ∃ argument ∈ command.allArguments, argument.id = entry.1 ∧ argument.HasValue

/-- So far only what fits is given, and what is not entered yet will fit. -/
structure Progress.Fits (command : Command) (progress : Progress) : Prop where
  given : progress.given.Fits command
  pending : ∀ pending, progress.pending = some pending →
    ∃ argument ∈ command.allArguments, argument.id = pending.id ∧ argument.HasValue

variable {command : Command}

namespace Given

theorem Fits.nothing : Given.nothing.Fits command := ⟨nofun, nofun⟩

variable {given given' : Given} {argument : Argument}

theorem Fits.addFlag (hfits : given.Fits command) (hmem : argument ∈ command.allArguments)
    (haction : argument.action = .raiseFlag) (h : given.addFlag argument.id = .ok given') :
    given'.Fits command := by
  rw [Given.addFlag] at h
  split at h
  · cases h
  · obtain rfl := Except.ok.inj h
    refine ⟨fun id hid => ?_, hfits.values⟩
    rcases List.mem_append.1 hid with hold | hnew
    · exact hfits.flags id hold
    · exact ⟨argument, hmem, (List.mem_singleton.1 hnew).symm, haction⟩

theorem Fits.addValue {id value : Text} (hfits : given.Fits command)
    (hid : ∃ argument ∈ command.allArguments, argument.id = id ∧ argument.HasValue)
    (h : given.addValue id value = .ok given') : given'.Fits command := by
  rw [Given.addValue] at h
  split at h
  · cases h
  · obtain rfl := Except.ok.inj h
    refine ⟨hfits.flags, fun entry hentry => ?_⟩
    rcases List.mem_append.1 hentry with hold | hnew
    · exact hfits.values entry hold
    · rw [List.mem_singleton.1 hnew]
      exact hid

end Given

namespace Progress

variable {progress progress' : Progress} {argument : Argument}

theorem Fits.start : Progress.start.Fits command := ⟨.nothing, nofun⟩

theorem Fits.settle {given : Given} (hfits : progress.Fits command)
    (h : progress.settle = .ok given) : given.Fits command := by
  rw [Progress.settle] at h
  split at h
  · obtain rfl := Except.ok.inj h
    exact hfits.given
  · cases h
  · next id value hpending => exact hfits.given.addValue (hfits.pending _ hpending) h

theorem fits_continueWith {given : Given} (hfits : given.Fits command) :
    (progress.continueWith given).Fits command := ⟨hfits, nofun⟩

theorem Fits.enterFlag (hfits : progress.Fits command) (hmem : argument ∈ command.allArguments)
    (haction : argument.action = .raiseFlag)
    (h : progress.enterFlag argument.id = .ok progress') : progress'.Fits command := by
  obtain ⟨settled, hsettled, h⟩ := bind_eq_ok_iff.1 h
  obtain ⟨given, hgiven, h⟩ := bind_eq_ok_iff.1 h
  obtain rfl := Except.ok.inj h
  exact fits_continueWith ((hfits.settle hsettled).addFlag hmem haction hgiven)

theorem Fits.enterValue {value : Text} (hfits : progress.Fits command)
    (hmem : argument ∈ command.allArguments) (hvalue : argument.HasValue)
    (h : progress.enterValue argument.id value = .ok progress') : progress'.Fits command := by
  obtain ⟨settled, hsettled, h⟩ := bind_eq_ok_iff.1 h
  obtain ⟨given, hgiven, h⟩ := bind_eq_ok_iff.1 h
  obtain rfl := Except.ok.inj h
  exact fits_continueWith ((hfits.settle hsettled).addValue ⟨argument, hmem, rfl, hvalue⟩ hgiven)

theorem Fits.await (hfits : progress.Fits command) (hmem : argument ∈ command.allArguments)
    (hvalue : argument.HasValue) (h : progress.await argument.id = .ok progress') :
    progress'.Fits command := by
  obtain ⟨given, hgiven, h⟩ := bind_eq_ok_iff.1 h
  obtain rfl := Except.ok.inj h
  refine ⟨hfits.settle hgiven, fun pending hpending => ?_⟩
  obtain rfl := Option.some.inj hpending
  exact ⟨argument, hmem, rfl, hvalue⟩

theorem leave_ne_ok (error : UsageError) : progress.leave error ≠ .ok progress' := by
  intro h
  obtain ⟨settled, -, hleft⟩ := bind_eq_ok_iff.1 h
  cases hleft

theorem Fits.enter {value : Option Text} (hfits : progress.Fits command)
    (hmem : argument ∈ command.allArguments)
    (h : progress.enter argument value = .ok progress') : progress'.Fits command := by
  have hvalue (haction : argument.action = .storeValue) : argument.HasValue :=
    .inl (beq_iff_eq.2 haction)
  unfold Progress.enter at h
  split at h
  · next value haction => exact hfits.enterValue hmem (hvalue haction) h
  · next haction => exact hfits.await hmem (hvalue haction) h
  · cases h
  · next haction => exact hfits.enterFlag hmem haction h
  · exact absurd h (leave_ne_ok _)
  · exact absurd h (leave_ne_ok _)

theorem Fits.long {name : Text} {value : Option Text} (hfits : progress.Fits command)
    (h : progress.long command name value = .ok progress') : progress'.Fits command := by
  rw [Progress.long] at h
  split at h
  · next argument hfound => exact hfits.enter (List.mem_of_find?_eq_some hfound) h
  · cases h

theorem Fits.short {letters : Text} (hfits : progress.Fits command)
    (h : progress.short command letters = .ok progress') : progress'.Fits command := by
  induction letters generalizing progress with
  | nil =>
    obtain rfl := Except.ok.inj h
    exact hfits
  | cons letter rest ih =>
    rw [Progress.short] at h
    split at h
    · cases h
    · next argument hfound =>
      have hmem := List.mem_of_find?_eq_some hfound
      split at h
      · exact hfits.enter hmem h
      · -- a letter without a value is entered before the next one is read
        obtain ⟨next, hnext, hrest⟩ := bind_eq_ok_iff.1 h
        exact ih (hfits.enter hmem hnext) hrest

theorem Fits.positional {text : Text} (hfits : progress.Fits command)
    (h : progress.positional command text = .ok progress') : progress'.Fits command := by
  rw [Progress.positional] at h
  split at h
  · next argument hfound =>
    obtain ⟨hmem, hpositional⟩ := List.mem_filter.1 (List.mem_of_find?_eq_some hfound)
    exact hfits.enterValue (List.mem_append_left _ hmem) (.inr hpositional) h
  · cases h

theorem Fits.plain {text : Text} (hfits : progress.Fits command)
    (h : progress.plain command text = .ok progress') : progress'.Fits command := by
  rw [Progress.plain] at h
  split at h
  · next id hpending =>
    obtain rfl := Except.ok.inj h
    refine ⟨hfits.given, fun pending hsome => ?_⟩
    obtain rfl := Option.some.inj hsome
    have hid := hfits.pending _ hpending
    exact hid
  · exact hfits.positional h

theorem Fits.step {text : Text} (hfits : progress.Fits command)
    (h : progress.step command text = .ok progress') : progress'.Fits command := by
  rw [Progress.step] at h
  split at h
  · exact hfits.positional h
  · cases hword : Word.ofText text with
    | escape =>
      rw [hword] at h
      obtain rfl := Except.ok.inj h
      exact ⟨hfits.given, hfits.pending⟩
    | long name value =>
      rw [hword] at h
      exact hfits.long h
    | short letters =>
      rw [hword] at h
      exact hfits.short h
    | plain text =>
      rw [hword] at h
      exact hfits.plain h

end Progress

namespace Command

variable {words : List Text} {given : Given}

theorem fits_of_readWords (h : command.readWords words = .ok given) : given.Fits command := by
  obtain ⟨progress, hprogress, hsettled⟩ := bind_eq_ok_iff.1 h
  have hfits : progress.Fits command :=
    foldlM_preserves (fun start next word hstart => hstart.step) .start hprogress
  exact hfits.settle hsettled

/-- What is accepted meets the demands on all groups. -/
theorem read_eq_ok_iff :
    command.read words = .ok given ↔
      command.readWords words.tail = .ok given ∧ command.groupError? given = none := by
  rw [read, bind_eq_ok_iff]
  constructor
  · intro h
    obtain ⟨found, hfound, h⟩ := h
    split at h
    · cases h
    · next hgroup =>
      obtain rfl := Except.ok.inj h
      exact ⟨hfound, hgroup⟩
  · intro h
    refine ⟨given, h.1, ?_⟩
    rw [h.2]
    rfl

theorem read_of_groupError {error : UsageError} (hread : command.readWords words.tail = .ok given)
    (h : command.groupError? given = some error) : command.read words = .error error := by
  rw [read, hread]
  simp only [bind, Except.bind, h]

end Command

end CommandLine

open CommandLine

namespace Registry

variable {registry : Registry} {about : Text} {given : Given}

/-- No converter is selected by an argument with a value. -/
theorem not_mem_names_of_hasValue {argument : Argument}
    (hmem : argument ∈ (registry.command about).allArguments) (hvalue : argument.HasValue) :
    argument.id ∉ registry.names := by
  rw [allArguments_eq] at hmem
  rcases List.mem_append.1 hmem with hflag | hother
  · obtain ⟨converter, -, rfl⟩ := List.mem_map.1 hflag
    rcases hvalue with htakes | hpositional
    · cases htakes
    · cases hpositional
  · exact not_mem_names_of_reserved (reserved_of_mem_fixed argument hother).1

theorem has_eq_of_mem_names (hfits : given.Fits (registry.command about)) {name : Text}
    (h : name ∈ registry.names) : given.has name = given.flags.contains name := by
  have hvalues : given.values.any (·.1 == name) = false := by
    rw [List.any_eq_false]
    intro entry hentry hname
    obtain ⟨argument, hmem, hid, hvalue⟩ := hfits.values entry hentry
    rw [← eq_of_beq hname, ← hid] at h
    exact not_mem_names_of_hasValue hmem hvalue h
  rw [Given.has, hvalues, Bool.or_false]

/-- Of all groups only that of the converters makes demands. -/
theorem groupError?_command (hne : registry.isEmpty = false) (given : Given) :
    (registry.command about).groupError? given =
      if 1 < (registry.group.present given).length then some .conflict
      else if registry.group.present given = [] then some .missingRequired
      else none := by
  have hgroups : (registry.command about).groups = [registry.group, Options.group] := by
    rw [groups_command, groups, hne]
    rfl
  have hexclusive : registry.group.exclusiveError? given =
      if 1 < (registry.group.present given).length then some .conflict else none := by
    unfold Group.exclusiveError?
    change (if (true && decide (1 < (registry.group.present given).length)) = true
      then _ else _) = _
    simp only [Bool.true_and, decide_eq_true_eq]
  have hrequired : registry.group.requiredError? given =
      if registry.group.present given = [] then some .missingRequired else none := by
    unfold Group.requiredError?
    change (if (true && (registry.group.present given).isEmpty) = true then _ else _) = _
    simp only [Bool.true_and, List.isEmpty_iff]
  have hfree : Options.group.exclusiveError? given = none ∧
      Options.group.requiredError? given = none := ⟨rfl, rfl⟩
  unfold Command.groupError?
  rw [hgroups]
  simp only [List.findSome?_cons, List.findSome?_nil, hexclusive, hrequired, hfree]
  split_ifs <;> rfl

/-- An accepted command line raises the flag of exactly one converter. -/
theorem exists_selected (hne : registry.isEmpty = false) {words : List Text}
    (h : (registry.command about).read words = .ok given) :
    ∃ name, registry.names.filter given.flags.contains = [name] := by
  obtain ⟨hread, hgroups⟩ := Command.read_eq_ok_iff.1 h
  have hpresent : registry.group.present given = registry.names.filter given.flags.contains :=
    List.filter_congr fun name hname =>
      has_eq_of_mem_names (Command.fits_of_readWords hread) hname
  rw [groupError?_command hne, hpresent] at hgroups
  split_ifs at hgroups with hseveral hnone
  have hpos := List.length_pos_iff.2 hnone
  exact List.length_eq_one_iff.1 (by omega)

theorem options_of_selected {name : Text}
    (h : registry.names.filter given.flags.contains = [name]) :
    ∃ options, registry.options given = .ok options ∧ options.converter = name := by
  rw [options, h]
  exact ⟨_, rfl, rfl⟩

theorem optionsOf_eq {command : Command} (hids : command.ids.Nodup) (words : List Text) :
    registry.optionsOf command words =
      match command.read words with
      | .error error => .error (.usage error)
      | .ok given => (registry.options given).mapError .failure := by
  have hchecked : command.checked = .ok command := if_pos hids
  rw [optionsOf, hchecked]
  show (match command.read words with
    | .error error => _
    | .ok given => _) = _
  cases command.read words with
  | error error => rfl
  | ok given =>
    dsimp only
    cases registry.options given <;> rfl

theorem optionsOf_of_clash {command : Command} (hids : ¬command.ids.Nodup) (words : List Text) :
    registry.optionsOf command words = .error .crash := by
  rw [optionsOf, Command.checked, if_neg hids]
  rfl

/-- Without a clash of ids a command line is read up to a usage error or to options. -/
theorem optionsOf_command (hne : registry.isEmpty = false)
    (hids : (registry.command about).ids.Nodup) (words : List Text) :
    (∃ error, registry.optionsOf (registry.command about) words = .error (.usage error)) ∨
    ∃ options, registry.optionsOf (registry.command about) words = .ok options ∧
      options.converter ∈ registry.names := by
  rw [optionsOf_eq hids]
  cases hread : (registry.command about).read words with
  | error error => exact .inl ⟨error, rfl⟩
  | ok given =>
    obtain ⟨name, hname⟩ := exists_selected hne hread
    obtain ⟨options, hoptions, rfl⟩ := options_of_selected hname
    have hmem : options.converter ∈ registry.names.filter given.flags.contains := by
      rw [hname]
      exact List.mem_singleton_self options.converter
    refine .inr ⟨options, ?_, (List.mem_filter.1 hmem).1⟩
    exact congrArg (Except.mapError Stop.failure) hoptions

end Registry

end IrConvert
