import IrConvert.Proofs.CommandLine.Selected
import IrConvert.Proofs.Service.Endings

namespace IrConvert

open CommandLine
open Service (resultOf)
open Storage (Store)

namespace Registry

variable {registry : Registry} {about : Text} {words : List Text}

theorem mem_names_of_optionsOf {asked : Command} {options : Options}
    (hasked : asked ∈ [registry.command about, (registry.command about).relaxed])
    (h : registry.optionsOf asked words = .ok options) : options.converter ∈ registry.names := by
  have hmem : options.converter ∈ registry.selected words := by
    rw [selected_of_optionsOf hasked h]
    exact List.mem_singleton_self _
  exact (mem_selected_iff.1 hmem).1

/-- That a converter is unknown is never said by the request itself, only by a converter. -/
theorem unknown_of_serve {σ : Type} [Store σ] {setting : Setting σ} {name : Text}
    (h : (resultOf (registry.serve about words) setting).1 =
      .error (.failure (.unknownConverter name))) :
    ∃ options converter source,
      registry.optionsOf (registry.command about) words = .ok options ∧
      registry.get? options.converter = some converter ∧
      setting.source (.ofWord options.input) = .ok source ∧
      ∃ part ∈ options.parts source,
        (converter.convert part).outcome = .failed (.unknownConverter name) := by
  obtain ⟨result, after, hserves⟩ := exists_serves registry about words setting
  rw [resultOf_serve hserves] at h
  have hasked : registry.optionsOf (registry.command about) words ≠
      .error (.failure (.unknownConverter name)) := by
    intro hasked
    rcases failure_of_optionsOf hasked with hnone | ⟨names, hseveral⟩
    · cases hnone
    · cases hseveral
  obtain ⟨options, hoptions, hhindered⟩ := (hserves.failure_iff hasked).1 h
  obtain ⟨converter, -, hget⟩ :=
    get?_of_mem_names (mem_names_of_optionsOf List.mem_cons_self hoptions)
  cases hhindered with
  | unread given =>
    obtain ⟨fault, hfault⟩ := Setting.source_eq_error given
    cases hfault
  | @failed source _ given converted =>
    refine ⟨options, converter, source, hoptions, hget, given, ?_⟩
    rcases convert_failed hget converted with hpart | hnone | ⟨failed, total, hfailed⟩
    · exact hpart
    · cases hnone
    · cases hfailed

theorem optionsOf_of_isEmpty (hempty : registry.isEmpty = true) {given : Given}
    (h : (registry.command about).read words = .ok given) :
    registry.optionsOf (registry.command about) words = .error (.failure .noneSelected) := by
  have hnames : registry.names = [] := List.map_eq_nil_iff.2 (List.isEmpty_iff.1 hempty)
  have hids : (registry.command about).ids.Nodup := by
    rw [nodup_ids_iff, hnames]
    exact List.not_mem_nil
  have hnone : registry.options given = .error .noneSelected := by
    rw [options, hnames]
    rfl
  rw [optionsOf_eq hids, h]
  dsimp only
  rw [hnone]
  rfl

/-- Whatever converters there are and whatever the words: options are for a converter that is
registered and the only one that is asked for, so no request fails because its converter is
unknown. With the demand for exactly one converter only a usage error is left. Without it the
selected names decide, in their order and not in that of the words. -/
structure SelectsKnown (registry : Registry) (about : Text) (words : List Text) : Prop where
  known : ∀ asked ∈ [registry.command about, (registry.command about).relaxed],
    ∀ options, registry.optionsOf asked words = .ok options →
      options.converter ∈ registry.names ∧
      (∃ converter, registry.get? options.converter = some converter) ∧
      ∀ name ∈ registry.names, Raises words.tail name ↔ name = options.converter
  unknown : ∀ {σ : Type} [Store σ] (setting : Setting σ) name,
    (resultOf (registry.serve about words) setting).1 =
      .error (.failure (.unknownConverter name)) →
    ∃ options converter source,
      registry.optionsOf (registry.command about) words = .ok options ∧
      registry.get? options.converter = some converter ∧
      setting.source (.ofWord options.input) = .ok source ∧
      ∃ part ∈ options.parts source,
        (converter.convert part).outcome = .failed (.unknownConverter name)
  chosen : registry.isEmpty = false → ∀ given, (registry.command about).read words = .ok given →
    ∃ options, registry.options given = .ok options
  noneSelected : registry.isEmpty = true →
    ∀ given, (registry.command about).read words = .ok given →
      ∀ (m : Type → Type) [Monad m] [LawfulMonad m] [Surroundings m],
        registry.serve about words = (Service.fail .noneSelected : ExceptT Stop m Unit)
  increasing : (registry.selected words).Pairwise (· < ·)
  mem_selected : ∀ name, name ∈ registry.selected words ↔
    name ∈ registry.names ∧ Raises words.tail name
  choice_eq : ∀ given, (registry.command about).relaxed.read words = .ok given →
    registry.choice given = choiceOf (registry.selected words)
  selected_congr : ∀ words',
    (∀ name ∈ registry.names, Raises words.tail name ↔ Raises words'.tail name) →
    registry.selected words' = registry.selected words

theorem serve_selected_known (registry : Registry) (about : Text) (words : List Text) :
    SelectsKnown registry about words where
  known := by
    intro asked hasked options h
    have hname := mem_names_of_optionsOf hasked h
    obtain ⟨converter, -, hget⟩ := get?_of_mem_names hname
    refine ⟨hname, ⟨converter, hget⟩, fun name hmem => ?_⟩
    calc Raises words.tail name
        ↔ name ∈ registry.selected words := by rw [mem_selected_iff, and_iff_right hmem]
      _ ↔ name = options.converter := by
        rw [selected_of_optionsOf hasked h, List.mem_singleton]
  unknown _ _ := unknown_of_serve
  chosen := by
    intro hne given hread
    obtain ⟨name, hname⟩ := exists_selected hne hread
    obtain ⟨options, hoptions, -⟩ := options_of_selected hname
    exact ⟨options, hoptions⟩
  noneSelected := by
    intro hempty given hread m _ _ _
    exact serve_of_refused (optionsOf_of_isEmpty hempty hread)
  increasing := registry.pairwise_selected words
  mem_selected _ := mem_selected_iff
  choice_eq := by
    intro given hread
    rw [choice_eq, filter_flags_eq_selected
      (fun name hname => (hasFlag_of_mem_names hname).relaxed) hread]
  selected_congr := by
    intro words' h
    refine Registry.selected_congr fun name => ?_
    rw [mem_selected_iff, mem_selected_iff]
    exact and_congr_right fun hname => (h name hname).symm

def passingTwo : Registry :=
  empty.after [.one (passingAs "b".toList), .one (passingAs "a".toList)]

/-- A word that looks like a flag but is the name of the input, and two flags in another order than
that of the names. -/
theorem serve_selected_known_of_two :
    (passingTwo.optionsOf (passingTwo.command []) (["p", "--a", "--", "--b"].map String.toList) =
        .ok { Options.forConverter "a".toList with input := "--b".toList } ∧
      ¬Raises (["--a", "--", "--b"].map String.toList) "b".toList) ∧
    ∃ given, (passingTwo.command []).relaxed.read (["p", "--b", "--a"].map String.toList) =
        .ok given ∧
      passingTwo.choice given =
        .error "Only one translation can be selected, got: a, b".toList := by
  refine ⟨⟨rfl, fun hraises => ?_⟩, ?_⟩
  · have hselects :=
      serve_selected_known passingTwo [] (["p", "--a", "--", "--b"].map String.toList)
    obtain ⟨-, -, honly⟩ := hselects.known _ List.mem_cons_self _ rfl
    have hname : "b".toList = "a".toList := (honly "b".toList (by decide)).1 hraises
    exact absurd hname (by decide)
  · have hselects :=
      serve_selected_known passingTwo [] (["p", "--b", "--a"].map String.toList)
    have hread : (passingTwo.command []).relaxed.read (["p", "--b", "--a"].map String.toList) =
        .ok ⟨["b".toList, "a".toList], []⟩ := rfl
    have hselected : passingTwo.selected (["p", "--b", "--a"].map String.toList) =
        ["a".toList, "b".toList] := by decide
    refine ⟨_, hread, (hselects.choice_eq _ hread).trans ?_⟩
    rw [hselected]
    rfl

end Registry

end IrConvert
