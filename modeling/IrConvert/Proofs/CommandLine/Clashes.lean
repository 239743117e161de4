import IrConvert.Proofs.CommandLine.Selection
import Mathlib.Data.List.Count

namespace IrConvert

open CommandLine

def CommandLine.Command.longs (command : Command) : List Text :=
  command.allArguments.filterMap (·.long)

namespace Registry

variable {registry : Registry} {about name : Text}

def fixedLongs : List Text := fixedArguments.filterMap (·.long)

theorem fixedLongs_eq : fixedLongs =
    ["output".toList, "split-input-file".toList, "debug".toList, "help".toList,
      "version".toList] := rfl

theorem reserved_of_mem_fixedLongs : ∀ long ∈ fixedLongs, long ∈ reservedNames := by decide

theorem longs_command : (registry.command about).longs = registry.names ++ fixedLongs := by
  have hflags : registry.arguments.filterMap (·.long) = registry.names := by
    rw [arguments, List.filterMap_map]
    exact congrFun List.filterMap_eq_map registry.converters
  rw [Command.longs, allArguments_eq, List.filterMap_append, hflags, fixedLongs]

theorem nodup_longs : (registry.command about).longs.Nodup := by
  rw [longs_command]
  apply List.Nodup.append registry.nodup_names
  · decide
  · intro long hname hfixed
    exact not_mem_names_of_reserved (reserved_of_mem_fixedLongs long hfixed) hname

theorem otherIds_eq (isEmpty : Bool) : otherIds isEmpty =
    ["input".toList, "output".toList, "split_input_file".toList, "debug".toList, "help".toList,
      "version".toList] ++
      ((if isEmpty then [] else ["translation".toList]) ++ ["TranslateArgs".toList]) := rfl

theorem count_otherIds (isEmpty : Bool) : (otherIds isEmpty).count "TranslateArgs".toList = 1 := by
  cases isEmpty <;> rfl

/-- An id is ambiguous exactly if it is the one that is not reserved and a converter has it. -/
theorem ambiguous_iff (id : Text) :
    1 < (registry.command about).ids.count id ↔
      id = "TranslateArgs".toList ∧ id ∈ registry.names := by
  have hname := List.nodup_iff_count_le_one.1 registry.nodup_names id
  have hother := List.nodup_iff_count_le_one.1 (nodup_otherIds registry.isEmpty) id
  rw [ids_command, List.count_append]
  constructor
  · intro h
    -- neither part has it twice, so it stands in both
    have hmem : id ∈ registry.names := List.count_pos_iff.1 (by omega)
    have hmem' : id ∈ otherIds registry.isEmpty := List.count_pos_iff.1 (by omega)
    refine ⟨?_, hmem⟩
    apply (mem_otherIds _ id hmem').resolve_left
    intro hreserved
    exact not_mem_names_of_reserved hreserved hmem
  · intro h
    obtain ⟨rfl, hmem⟩ := h
    rw [count_otherIds]
    have hpos := List.count_pos_iff.2 hmem
    omega

/-- No words are read by a command with an ambiguous id, and no other command crashes. -/
theorem optionsOf_eq_crash_iff {command : Command} {words : List Text} :
    registry.optionsOf command words = .error .crash ↔ ¬ command.ids.Nodup := by
  by_cases hids : command.ids.Nodup
  · refine iff_of_false ?_ (not_not_intro hids)
    rw [optionsOf_eq hids]
    cases command.read words with
    | error error => nofun
    | ok given =>
      intro h
      obtain ⟨failure, -, hstop⟩ := mapError_eq_error_iff.1 h
      cases hstop
  · exact iff_of_true (optionsOf_of_clash hids words) hids

/-- Whatever is registered, the long names are distinct, and so are the ids but for one name that
is not reserved. If a converter has that name no command line is read. -/
theorem ambiguous_after_iff (steps : List Registration) (about : Text) :
    let registry := empty.after steps
    let command := registry.command about
    (command.longs = registry.names ++ ["output".toList, "split-input-file".toList,
        "debug".toList, "help".toList, "version".toList] ∧
      command.longs.Nodup) ∧
    command.ids = registry.names ++ (["input".toList, "output".toList,
        "split_input_file".toList, "debug".toList, "help".toList, "version".toList] ++
      ((if registry.isEmpty then [] else ["translation".toList]) ++ ["TranslateArgs".toList])) ∧
    (∀ id, 1 < command.ids.count id ↔ id = "TranslateArgs".toList ∧ id ∈ registry.names) ∧
    (command.ids.Nodup ↔ "TranslateArgs".toList ∉ registry.names) ∧
    ∀ words, registry.optionsOf command words = .error .crash ↔
      "TranslateArgs".toList ∈ registry.names := by
  intro registry command
  refine ⟨⟨?_, nodup_longs⟩, ?_, ambiguous_iff, nodup_ids_iff, fun words => ?_⟩
  · rw [longs_command, fixedLongs_eq]
  · rw [ids_command, otherIds_eq]
  · rw [optionsOf_eq_crash_iff, nodup_ids_iff, not_not]

theorem exists_ambiguous :
    ¬∀ (steps : List Registration) (about : Text),
      ((empty.after steps).command about).longs.Nodup ∧
        ((empty.after steps).command about).ids.Nodup := by
  intro h
  have hids := (h [.one (passingAs "TranslateArgs".toList)] []).2
  rw [nodup_ids_iff] at hids
  revert hids
  decide

end Registry

end IrConvert
