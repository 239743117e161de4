import IrConvert.Proofs.CommandLine.Selected
import Mathlib.Data.List.Count

namespace IrConvert

open CommandLine

namespace CommandLine

variable {command : Command} {name : Text}

theorem Command.readWords_flag (hflag : command.HasFlag name) (hne : name ≠ [])
    (hfree : '=' ∉ name) : command.readWords ["--".toList ++ name] = .ok ⟨[name], []⟩ := by
  have hstep : Progress.start.step command ("--".toList ++ name) =
      .ok ⟨⟨[name], []⟩, none, false⟩ := hflag.step hne hfree rfl
  rw [readWords, List.foldlM_cons, hstep]
  rfl

end CommandLine

namespace Registry

variable {registry : Registry} {about name : Text}

theorem filter_singleton (h : name ∈ registry.names) :
    registry.names.filter [name].contains = [name] := by
  have hcontains : ([name].contains : Text → Bool) = (· == name) := by
    funext other
    rw [Bool.eq_iff_iff, List.contains_iff_mem, List.mem_singleton, beq_iff_eq]
  -- each name stands in a registry once
  rw [hcontains, List.filter_beq, List.count_eq_one_of_mem registry.nodup_names h]
  rfl

theorem isEmpty_of_mem_names (h : name ∈ registry.names) : registry.isEmpty = false := by
  obtain ⟨converter, hmem, -⟩ := List.mem_map.1 h
  exact List.isEmpty_eq_false_iff_exists_mem.2 ⟨converter, hmem⟩

theorem groupError?_singleton (h : name ∈ registry.names) :
    (registry.command about).groupError? ⟨[name], []⟩ = none := by
  have hpresent : registry.group.present ⟨[name], []⟩ = [name] :=
    (List.filter_congr fun other _ => Bool.or_false _).trans (filter_singleton h)
  rw [groupError?_command (isEmpty_of_mem_names h), hpresent]
  rfl

theorem options_singleton (h : name ∈ registry.names) :
    registry.options ⟨[name], []⟩ = .ok (.forConverter name) := by
  -- the other options have reserved names, so that none of them is given
  have hother {id : Text} (hid : id ∈ reservedNames) : [name].contains id = false := by
    rw [Bool.eq_false_iff, Ne, List.contains_iff_mem, List.mem_singleton]
    exact (ne_of_mem_names h hid).symm
  rw [options]
  dsimp only
  rw [filter_singleton h]
  dsimp only
  rw [hother (by decide), hother (by decide)]
  rfl

theorem readOptions_flag (h : name ∈ registry.names) (hfree : '=' ∉ name)
    (hclash : "TranslateArgs".toList ∉ registry.names) (program : Text) :
    registry.readOptions [program, "--".toList ++ name] = .ok (.forConverter name) := by
  obtain ⟨hne, -, -⟩ := nameRefusal?_eq_none_iff.1 (nameRefusal?_of_mem_names h)
  have hread : (registry.command []).read [program, "--".toList ++ name] = .ok ⟨[name], []⟩ :=
    Command.read_eq_ok_iff.2 ⟨Command.readWords_flag (hasFlag_of_mem_names h) hne hfree,
      groupError?_singleton h⟩
  rw [readOptions, optionsOf_eq (nodup_ids_iff.2 hclash), hread]
  dsimp only
  rw [options_singleton h]
  rfl

/-- No words are an option with an equals sign in its name, and none are read if one id stands for
two things. -/
theorem free_of_readOptions {words : List Text} {options : Options}
    (h : registry.readOptions words = .ok options) :
    '=' ∉ options.converter ∧ "TranslateArgs".toList ∉ registry.names := by
  constructor
  · have hmem : options.converter ∈ registry.selected words := by
      rw [selected_of_optionsOf List.mem_cons_self h]
      exact List.mem_singleton_self _
    obtain ⟨-, hfree, -⟩ := raises_iff.1 (mem_selected_iff.1 hmem).2
    exact hfree
  · rw [← @nodup_ids_iff registry []]
    by_contra hids
    rw [readOptions, optionsOf_of_clash hids] at h
    cases h

/-- A converter of a registry is selected by the word for its flag exactly if some words select it,
and that is if there is no equals sign in its name and no id of the command stands for two
things. -/
theorem readOptions_flag_iff (h : name ∈ registry.names) :
    (∀ program, registry.readOptions [program, "--".toList ++ name] = .ok (.forConverter name) ↔
      '=' ∉ name ∧ "TranslateArgs".toList ∉ registry.names) ∧
    ((∃ words options, registry.readOptions words = .ok options ∧ options.converter = name) ↔
      '=' ∉ name ∧ "TranslateArgs".toList ∉ registry.names) := by
  have hflag (hfree : '=' ∉ name ∧ "TranslateArgs".toList ∉ registry.names) (program : Text) :=
    readOptions_flag h hfree.1 hfree.2 program
  refine ⟨fun program => ⟨fun hok => free_of_readOptions hok, fun hfree => hflag hfree program⟩,
    ⟨fun hsome => ?_, fun hfree => ⟨_, _, hflag hfree [], rfl⟩⟩⟩
  obtain ⟨words, options, hok, rfl⟩ := hsome
  exact free_of_readOptions hok

def passingEquation : Registry :=
  empty.after [.one (passingAs "a=b".toList), .one (passingAs "c".toList)]

theorem readOptions_flag_iff_of_equation :
    "c".toList ∈ passingEquation.names ∧ "a=b".toList ∈ passingEquation.names ∧
    passingEquation.readOptions ["p".toList, "--c".toList] = .ok (.forConverter "c".toList) ∧
    ∀ words options, passingEquation.readOptions words = .ok options →
      options.converter ≠ "a=b".toList := by
  have hc : "c".toList ∈ passingEquation.names := by decide
  have hequation : "a=b".toList ∈ passingEquation.names := by decide
  refine ⟨hc, hequation, ((readOptions_flag_iff hc).1 _).2 (by decide), ?_⟩
  intro words options hok hname
  obtain ⟨hfree, -⟩ := (readOptions_flag_iff hequation).2.1 ⟨words, options, hok, hname⟩
  exact hfree (by decide)

theorem exists_unselectable :
    ¬∀ (steps : List Registration) (name : Text), name ∈ (empty.after steps).names →
      ∀ program, (empty.after steps).readOptions [program, "--".toList ++ name] =
        .ok (.forConverter name) := by
  intro h
  have hok := h [.one (passingAs "a=b".toList)] "a=b".toList (by decide) "p".toList
  have hunknown : (empty.after [.one (passingAs "a=b".toList)]).readOptions
      ["p".toList, "--a=b".toList] = .error (.usage .unknown) := rfl
  cases hunknown.symm.trans hok

end Registry

end IrConvert
