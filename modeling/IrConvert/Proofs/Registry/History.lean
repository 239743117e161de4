import IrConvert.CommandLine.Options
import Mathlib.Data.List.Nodup

namespace IrConvert

def Registration.converters : Registration → List Converter
  | .one converter => [converter]
  | .builtins => Builtin.converters Ir.host

namespace Registry

variable {registry next : Registry} {converter : Converter} {refusal : Refusal}

theorem pairwise_names (registry : Registry) : registry.names.Pairwise (· < ·) :=
  List.pairwise_map.2 registry.sorted

theorem nodup_names (registry : Registry) : registry.names.Nodup := by
  refine registry.pairwise_names.imp ?_
  intro name name' hlt heq
  rw [heq] at hlt
  exact List.lt_irrefl name' hlt

theorem eq_of_name_eq {converter' : Converter} (h : converter ∈ registry.converters)
    (h' : converter' ∈ registry.converters) (hname : converter.name = converter'.name) :
    converter = converter' := List.inj_on_of_nodup_map registry.nodup_names h h' hname

/-- Among converters of a registry the first one of a name is the only one. -/
theorem find?_name_eq_some_iff {converters : List Converter}
    (hsub : ∀ x ∈ converters, x ∈ registry.converters) {name : Text} :
    converters.find? (·.name == name) = some converter ↔
      converter ∈ converters ∧ converter.name = name := by
  constructor
  · intro h
    have hname := List.find?_some h
    exact ⟨List.mem_of_find?_eq_some h, eq_of_beq hname⟩
  · intro h
    obtain ⟨hmem, rfl⟩ := h
    have hsome : (converters.find? (·.name == converter.name)).isSome = true :=
      List.find?_isSome.2 ⟨converter, hmem, beq_self_eq_true _⟩
    obtain ⟨found, hfound⟩ := Option.isSome_iff_exists.1 hsome
    have hname := List.find?_some hfound
    have hin := hsub found (List.mem_of_find?_eq_some hfound)
    rw [hfound, eq_of_name_eq hin (hsub converter hmem) (eq_of_beq hname)]

theorem get?_eq_some_iff {name : Text} :
    registry.get? name = some converter ↔
      converter ∈ registry.converters ∧ converter.name = name :=
  find?_name_eq_some_iff fun _ h => h

theorem get?_of_mem_names {name : Text} (h : name ∈ registry.names) :
    ∃ converter ∈ registry.converters, registry.get? name = some converter := by
  obtain ⟨converter, hmem, hname⟩ := List.mem_map.1 h
  exact ⟨converter, hmem, get?_eq_some_iff.2 ⟨hmem, hname⟩⟩

theorem refusal?_eq (registry : Registry) (name : Text) :
    registry.refusal? name =
      if name = [] ∨ name.head? = some '-' then some (.invalidName name)
      else if name ∈ reservedNames then some (.reservedName name)
      else if name ∈ registry.names then some (.takenName name)
      else none := by
  unfold refusal? nameRefusal?
  simp only [Bool.or_eq_true, List.isEmpty_iff, beq_iff_eq, List.contains_iff_mem]
  split_ifs <;> rfl

theorem nameRefusal?_eq_none_iff {name : Text} :
    nameRefusal? name = none ↔
      name ≠ [] ∧ name.head? ≠ some '-' ∧ name ∉ reservedNames := by
  unfold nameRefusal?
  simp only [Bool.or_eq_true, List.isEmpty_iff, beq_iff_eq, List.contains_iff_mem]
  constructor
  · intro h
    split_ifs at h with hinvalid hreserved
    obtain ⟨hne, hdash⟩ := not_or.1 hinvalid
    exact ⟨hne, hdash, hreserved⟩
  · intro h
    obtain ⟨hne, hdash, hreserved⟩ := h
    rw [if_neg (not_or.2 ⟨hne, hdash⟩), if_neg hreserved]

theorem nameRefusal?_of_mem_names {name : Text} (h : name ∈ registry.names) :
    nameRefusal? name = none := by
  obtain ⟨converter, hmem, rfl⟩ := List.mem_map.1 h
  exact registry.acceptable converter hmem

theorem register_of_refused (h : registry.refusal? converter.name = some refusal) :
    registry.register converter = .error refusal := by
  unfold register
  split
  · next other hother =>
    obtain rfl := Option.some.inj (hother.symm.trans h)
    rfl
  · next hnone => cases hnone.symm.trans h

theorem exists_register (h : registry.refusal? converter.name = none) :
    ∃ next, registry.register converter = .ok next ∧
      next.converters = insert converter registry.converters := by
  unfold register
  split
  · next refusal hsome => cases hsome.symm.trans h
  · exact ⟨_, rfl, rfl⟩

/-- Only what is registered is added. -/
theorem mem_of_register (h : registry.register converter = .ok next) (x : Converter) :
    x ∈ next.converters ↔ x = converter ∨ x ∈ registry.converters := by
  cases hrefusal : registry.refusal? converter.name with
  | some refusal => cases (register_of_refused hrefusal).symm.trans h
  | none =>
    obtain ⟨found, hfound, hinsert⟩ := exists_register hrefusal
    obtain rfl := Except.ok.inj (hfound.symm.trans h)
    rw [hinsert, mem_insert]

theorem apply_one (registry : Registry) (converter : Converter) :
    registry.apply (.one converter) =
      match registry.register converter with
      | .ok next => (next, none)
      | .error refusal => (registry, some refusal) := rfl

theorem snd_apply_one (registry : Registry) (converter : Converter) :
    (registry.apply (.one converter)).2 = registry.refusal? converter.name := by
  rw [apply_one]
  cases hrefusal : registry.refusal? converter.name with
  | some refusal => rw [register_of_refused hrefusal]
  | none =>
    obtain ⟨next, hnext, -⟩ := exists_register hrefusal
    rw [hnext]

/-- A registration that is refused changes nothing. -/
theorem fst_apply_one_of_refused (h : (registry.apply (.one converter)).2 ≠ none) :
    (registry.apply (.one converter)).1 = registry := by
  rw [apply_one] at h ⊢
  cases hregister : registry.register converter with
  | ok next =>
    rw [hregister] at h
    exact absurd rfl h
  | error refusal => rfl

theorem message_apply_one (registry : Registry) (converter : Converter) :
    (registry.apply (.one converter)).2.map Refusal.message =
      if converter.name = [] ∨ converter.name.head? = some '-' then
        some ("Invalid translation name: ".toList ++ converter.name.quoted)
      else if converter.name ∈ reservedNames then
        some ("Translation name ".toList ++ converter.name.quoted ++
          " clashes with a driver option".toList)
      else if converter.name ∈ registry.names then
        some ("Attempting to overwrite an existing translation: ".toList ++ converter.name)
      else none := by
  rw [snd_apply_one, refusal?_eq]
  split_ifs <;> rfl

theorem refusal?_of_nameRefusal? (registry : Registry) {name : Text}
    (h : nameRefusal? name = none) :
    registry.refusal? name =
      if name ∈ registry.names then some (.takenName name) else none := by
  rw [refusal?, h]
  simp only [List.contains_iff_mem]

/-- The second converter is registered only if the first one is. -/
theorem registerEach_pair (registry : Registry) (first second : Converter) :
    registry.registerEach [first, second] =
      match registry.apply (.one first) with
      | (middle, none) => middle.apply (.one second)
      | refused => refused := by
  rw [apply_one, registerEach]
  cases registry.register first with
  | ok middle => rfl
  | error refusal => rfl

theorem mem_names_of_register (h : registry.register converter = .ok next) (name : Text) :
    name ∈ next.names ↔ converter.name = name ∨ name ∈ registry.names := by
  simp only [names, List.mem_map, mem_of_register h, or_and_right, exists_or, exists_eq_left]

theorem snd_registerEach_pair {first second : Converter} (hfirst : nameRefusal? first.name = none)
    (hsecond : nameRefusal? second.name = none) (hne : first.name ≠ second.name)
    (registry : Registry) :
    (registry.registerEach [first, second]).2 =
      if first.name ∈ registry.names then some (.takenName first.name)
      else if second.name ∈ registry.names then some (.takenName second.name)
      else none := by
  have hrefusal := registry.refusal?_of_nameRefusal? hfirst
  rw [registerEach_pair, apply_one]
  by_cases htaken : first.name ∈ registry.names
  · rw [if_pos htaken] at hrefusal ⊢
    rw [register_of_refused hrefusal]
  · rw [if_neg htaken] at hrefusal ⊢
    obtain ⟨middle, hmiddle, -⟩ := exists_register hrefusal
    -- the first converter does not take the name of the second
    have hnames : second.name ∈ middle.names ↔ second.name ∈ registry.names :=
      (mem_names_of_register hmiddle second.name).trans (or_iff_right hne)
    rw [hmiddle]
    dsimp only
    rw [snd_apply_one, middle.refusal?_of_nameRefusal? hsecond]
    simp only [hnames]

theorem snd_apply_builtins (registry : Registry) :
    (registry.apply .builtins).2 =
      if "mlir-to-llvmir".toList ∈ registry.names then
        some (.takenName "mlir-to-llvmir".toList)
      else if "mlir-to-mlir".toList ∈ registry.names then some (.takenName "mlir-to-mlir".toList)
      else none := by
  have hne : (Builtin.converter Ir.host .llvmIr).name ≠ (Builtin.converter Ir.host .mlir).name := by
    decide
  have hpair := snd_registerEach_pair rfl rfl hne registry
  exact hpair

/-- What is registered of the converters of a step: those before the first one that is refused. -/
def registeredOf (registry : Registry) : List Converter → List Converter
  | [] => []
  | converter :: others =>
    match registry.register converter with
    | .ok next => converter :: next.registeredOf others
    | .error _ => []

def registered (registry : Registry) : List Registration → List Converter
  | [] => []
  | step :: steps =>
    registry.registeredOf step.converters ++ (registry.apply step).1.registered steps

theorem apply_eq (registry : Registry) (step : Registration) :
    registry.apply step = registry.registerEach step.converters := by
  cases step <;> rfl

theorem mem_registerEach (registry : Registry) (converters : List Converter) (x : Converter) :
    x ∈ (registry.registerEach converters).1.converters ↔
      x ∈ registry.converters ∨ x ∈ registry.registeredOf converters := by
  induction converters generalizing registry with
  | nil => simp [registerEach, registeredOf]
  | cons converter others ih =>
    rw [registerEach, registeredOf]
    cases hregister : registry.register converter with
    | error refusal => simp
    | ok next =>
      dsimp only
      rw [ih, mem_of_register hregister, List.mem_cons, or_assoc, or_left_comm]

theorem mem_after (registry : Registry) (steps : List Registration) (x : Converter) :
    x ∈ (registry.after steps).converters ↔
      x ∈ registry.converters ∨ x ∈ registry.registered steps := by
  induction steps generalizing registry with
  | nil => simp [after, registered]
  | cons step steps ih =>
    rw [registered, List.mem_append, ← or_assoc, ← mem_registerEach, ← apply_eq]
    exact ih (registry.apply step).1

theorem after_append (registry : Registry) (steps later : List Registration) :
    registry.after (steps ++ later) = (registry.after steps).after later := List.foldl_append

theorem mem_after_empty (steps : List Registration) (x : Converter) :
    x ∈ (empty.after steps).converters ↔ x ∈ empty.registered steps := by
  rw [mem_after]
  exact or_iff_right List.not_mem_nil

/-- No step changes what is found, or takes it back. -/
theorem get?_after {name : Text} (h : registry.get? name = some converter)
    (later : List Registration) : (registry.after later).get? name = some converter := by
  rw [get?_eq_some_iff] at h ⊢
  exact ⟨(mem_after registry later converter).2 (.inl h.1), h.2⟩

theorem get?_after_empty (steps : List Registration) (name : Text) :
    (empty.after steps).get? name = (empty.registered steps).find? (·.name == name) := by
  have hsub : ∀ x ∈ empty.registered steps, x ∈ (empty.after steps).converters := fun x hx =>
    (mem_after_empty steps x).2 hx
  refine Option.ext fun converter => ?_
  rw [get?_eq_some_iff, find?_name_eq_some_iff hsub, mem_after_empty]

theorem length_names (registry : Registry) : registry.names.length = registry.size :=
  List.length_map _

theorem length_arguments (registry : Registry) : registry.arguments.length = registry.size :=
  List.length_map _

theorem isEmpty_iff (registry : Registry) : registry.isEmpty = true ↔ registry.size = 0 :=
  List.isEmpty_iff.trans List.length_eq_zero_iff.symm

/-- Names, converters and arguments stand in one order. -/
theorem aligned {i : ℕ} (h : registry.converters[i]? = some converter) :
    registry.names[i]? = some converter.name ∧
      ∃ argument, registry.arguments[i]? = some argument ∧ argument.id = converter.name ∧
        argument.long = some converter.name ∧ argument.help = converter.description := by
  have hflag : registry.arguments[i]? =
      some (.flag converter.name converter.name converter.description) := by
    rw [arguments, List.getElem?_map, h]
    rfl
  refine ⟨?_, _, hflag, rfl, rfl, rfl⟩
  rw [names, List.getElem?_map, h]
  rfl

/-- What is known of a registry after any steps, of one registration more, and of the
registration of the converters that every tool has. -/
structure MadeBy (registry : Registry) (steps : List Registration) : Prop where
  increasing : registry.names.Pairwise (· < ·)
  length_names : registry.names.length = registry.size
  length_converters : registry.converters.length = registry.size
  length_arguments : registry.arguments.length = registry.size
  aligned : ∀ (i : ℕ) converter, registry.converters[i]? = some converter →
    registry.names[i]? = some converter.name ∧
      ∃ argument, registry.arguments[i]? = some argument ∧ argument.id = converter.name ∧
        argument.long = some converter.name ∧ argument.help = converter.description
  isEmpty_iff : registry.isEmpty = true ↔ registry.size = 0
  acceptable : ∀ name ∈ registry.names,
    name ≠ [] ∧ name.head? ≠ some '-' ∧ name ∉ reservedNames
  get?_eq : ∀ name, registry.get? name = (empty.registered steps).find? (·.name == name)
  kept : ∀ name converter later, registry.get? name = some converter →
    (empty.after (steps ++ later)).get? name = some converter
  message_one : ∀ converter : Converter,
    (registry.apply (.one converter)).2.map Refusal.message =
      if converter.name = [] ∨ converter.name.head? = some '-' then
        some ("Invalid translation name: ".toList ++ converter.name.quoted)
      else if converter.name ∈ reservedNames then
        some ("Translation name ".toList ++ converter.name.quoted ++
          " clashes with a driver option".toList)
      else if converter.name ∈ registry.names then
        some ("Attempting to overwrite an existing translation: ".toList ++ converter.name)
      else none
  unchanged : ∀ converter : Converter, (registry.apply (.one converter)).2 ≠ none →
    (registry.apply (.one converter)).1 = registry
  builtins_eq : registry.apply .builtins =
    match registry.apply (.one (Builtin.converter Ir.host .llvmIr)) with
    | (middle, none) => middle.apply (.one (Builtin.converter Ir.host .mlir))
    | refused => refused
  message_builtins : (registry.apply .builtins).2.map Refusal.message =
    if "mlir-to-llvmir".toList ∈ registry.names then
      some ("Attempting to overwrite an existing translation: ".toList ++ "mlir-to-llvmir".toList)
    else if "mlir-to-mlir".toList ∈ registry.names then
      some ("Attempting to overwrite an existing translation: ".toList ++ "mlir-to-mlir".toList)
    else none

theorem after_empty_exact (steps : List Registration) : (empty.after steps).MadeBy steps where
  increasing := pairwise_names _
  length_names := length_names _
  length_converters := rfl
  length_arguments := length_arguments _
  aligned _ _ := aligned
  isEmpty_iff := isEmpty_iff _
  acceptable _ hname := nameRefusal?_eq_none_iff.1 (nameRefusal?_of_mem_names hname)
  get?_eq := get?_after_empty steps
  kept name converter later hget := by
    rw [after_append]
    exact get?_after hget later
  message_one := message_apply_one _
  unchanged _ := fst_apply_one_of_refused
  builtins_eq := registerEach_pair ..
  message_builtins := by
    rw [snd_apply_builtins]
    split_ifs <;> rfl

def passingAs (name : Text) : Converter := { name, description := "Pass on", convert := pure }

theorem after_empty_exact_of_taken_builtin :
    let own := passingAs "mlir-to-mlir".toList
    (empty.after [.one own, .builtins]).get? "mlir-to-mlir".toList = some own ∧
    ((empty.after [.one own]).apply .builtins).2.map Refusal.message =
      some "Attempting to overwrite an existing translation: mlir-to-mlir".toList := by
  intro own
  have hget : (empty.after [.one own]).get? "mlir-to-mlir".toList = some own := rfl
  have hmade := after_empty_exact [.one own]
  refine ⟨hmade.kept _ _ [.builtins] hget, hmade.message_builtins.trans ?_⟩
  have hfirst : "mlir-to-llvmir".toList ∉ (empty.after [.one own]).names := by decide
  have hsecond : "mlir-to-mlir".toList ∈ (empty.after [.one own]).names := by decide
  rw [if_neg hfirst, if_pos hsecond]
  rfl

end Registry

end IrConvert
