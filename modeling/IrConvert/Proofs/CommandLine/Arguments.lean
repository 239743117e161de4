import IrConvert.Proofs.Registry.History

namespace IrConvert

open CommandLine

namespace Registry

variable {registry : Registry} {about : Text}

theorem groups_command : (registry.command about).groups = registry.groups ++ [Options.group] := rfl

theorem not_mem_names_of_reserved {name : Text} (h : name ∈ reservedNames) :
    name ∉ registry.names := by
  intro hmem
  obtain ⟨-, -, hfree⟩ := nameRefusal?_eq_none_iff.1 (nameRefusal?_of_mem_names hmem)
  exact hfree h

theorem ne_of_mem_names {name id : Text} (hname : name ∈ registry.names)
    (hid : id ∈ reservedNames) : name ≠ id := by
  intro heq
  rw [heq] at hname
  exact not_mem_names_of_reserved hid hname

def fixedArguments : List Argument := Options.arguments ++ [.helpFlag, .versionFlag]

theorem allArguments_eq :
    (registry.command about).allArguments = registry.arguments ++ fixedArguments :=
  List.append_assoc ..

theorem reserved_of_mem_fixed :
    ∀ argument ∈ fixedArguments,
      argument.id ∈ reservedNames ∧ ∀ long ∈ argument.long, long ∈ reservedNames := by decide

/-- No argument but the flag of a converter has its name, as an id or in long. -/
theorem eq_flag_of_mem_names {name : Text} (hname : name ∈ registry.names) {argument : Argument}
    (hmem : argument ∈ (registry.command about).allArguments)
    (h : argument.id = name ∨ argument.long = some name) :
    ∃ description, argument = .flag name name description := by
  rw [allArguments_eq] at hmem
  rcases List.mem_append.1 hmem with hflag | hfixed
  · obtain ⟨converter, -, rfl⟩ := List.mem_map.1 hflag
    obtain rfl : converter.name = name := h.elim id fun hlong => Option.some.inj hlong
    exact ⟨_, rfl⟩
  · obtain ⟨hid, hlong⟩ := reserved_of_mem_fixed argument hfixed
    have hreserved : name ∈ reservedNames := by
      rcases h with rfl | h
      · exact hid
      · exact hlong name h
    exact absurd hname (not_mem_names_of_reserved hreserved)

/-- A reserved name is none of the flag of a converter. -/
theorem ofLong?_of_reserved {name : Text} (h : name ∈ reservedNames) :
    (registry.command about).ofLong? name = fixedArguments.find? (·.long == some name) := by
  have hnone : registry.arguments.find? (·.long == some name) = none := by
    rw [List.find?_eq_none]
    intro argument hmem hbeq
    obtain ⟨converter, hconverter, rfl⟩ := List.mem_map.1 hmem
    obtain rfl : converter.name = name := Option.some.inj (eq_of_beq hbeq)
    exact not_mem_names_of_reserved h (List.mem_map_of_mem hconverter)
  rw [Command.ofLong?, allArguments_eq, List.find?_append, hnone, Option.none_or]

theorem ofLong?_output :
    (registry.command about).ofLong? "output".toList = some Options.outputArgument :=
  ofLong?_of_reserved (by decide)

theorem ofLong?_split :
    (registry.command about).ofLong? "split-input-file".toList = some Options.splitArgument :=
  ofLong?_of_reserved (by decide)

theorem ofLong?_debug :
    (registry.command about).ofLong? "debug".toList = some Options.debugArgument :=
  ofLong?_of_reserved (by decide)

theorem flag_mem_allArguments {name : Text} (h : name ∈ registry.names) :
    ∃ description, .flag name name description ∈ (registry.command about).allArguments := by
  obtain ⟨converter, hmem, rfl⟩ := List.mem_map.1 h
  refine ⟨converter.description, ?_⟩
  rw [allArguments_eq]
  exact List.mem_append_left _ (List.mem_map_of_mem hmem)

def otherIds (isEmpty : Bool) : List Text :=
  fixedArguments.map (·.id) ++
    ((if isEmpty then [] else ["translation".toList]) ++ ["TranslateArgs".toList])

theorem ids_command :
    (registry.command about).ids = registry.names ++ otherIds registry.isEmpty := by
  have hflags : registry.arguments.map (·.id) = registry.names := List.map_map
  have hgroups : (registry.groups ++ [Options.group]).map (·.id) =
      (if registry.isEmpty then [] else ["translation".toList]) ++ ["TranslateArgs".toList] := by
    rw [groups]
    split <;> rfl
  rw [Command.ids, allArguments_eq, groups_command, hgroups, List.map_append, hflags,
    List.append_assoc, otherIds]

theorem mem_otherIds : ∀ isEmpty, ∀ id ∈ otherIds isEmpty,
    id ∈ reservedNames ∨ id = "TranslateArgs".toList := by decide

theorem nodup_otherIds : ∀ isEmpty, (otherIds isEmpty).Nodup := by decide

/-- One name is not kept free for the command line. -/
theorem nodup_ids_iff :
    (registry.command about).ids.Nodup ↔ "TranslateArgs".toList ∉ registry.names := by
  rw [ids_command, List.nodup_append]
  constructor
  · intro h hmem
    obtain ⟨-, -, hne⟩ := h
    refine hne _ hmem "TranslateArgs".toList ?_ rfl
    exact List.mem_append_right _ (List.mem_append_right _ (List.mem_singleton_self _))
  · intro h
    refine ⟨registry.nodup_names, nodup_otherIds _, fun name hname id hid heq => ?_⟩
    subst heq
    rcases mem_otherIds _ name hid with hreserved | rfl
    · exact not_mem_names_of_reserved hreserved hname
    · exact h hname

end Registry

end IrConvert
