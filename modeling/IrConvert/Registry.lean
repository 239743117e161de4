import IrConvert.Run

namespace IrConvert

/-- Turns a source into output text. Its name is the word that selects it. -/
structure Converter where
  name : Text
  description : Text
  convert : Text → Run Text

def Converter.flag (converter : Converter) : Text := "--" ++ converter.name

inductive Refusal where
  | invalidName (name : Text)
  | reservedName (name : Text)
  | takenName (name : Text)
deriving DecidableEq

def Refusal.message : Refusal → Text
  | invalidName name => "Invalid translation name: " ++ name.quoted
  | reservedName name => "Translation name " ++ name.quoted ++ " clashes with a driver option"
  | takenName name => "Attempting to overwrite an existing translation: " ++ name

namespace Registry

/-- The names of the options that every tool has, and of the group of its converters. -/
def reservedNames : List Text :=
  ["input", "output", "split-input-file", "split_input_file", "debug", "help", "version",
    "translation"]

/-- What speaks against a name, whatever is registered. -/
def nameRefusal? (name : Text) : Option Refusal :=
  if name.isEmpty || name.head? == some '-' then some (.invalidName name)
  else if reservedNames.contains name then some (.reservedName name)
  else none

def insert (converter : Converter) : List Converter → List Converter
  | [] => [converter]
  | first :: others =>
    if converter.name < first.name then converter :: first :: others
    else first :: insert converter others

theorem mem_insert {converter x : Converter} {converters : List Converter} :
    x ∈ insert converter converters ↔ x = converter ∨ x ∈ converters := by
  induction converters with
  | nil => simp [insert]
  | cons first others ih =>
    simp only [insert]
    split
    · simp
    · simp only [List.mem_cons, ih]
      exact or_left_comm

def Sorted (converters : List Converter) : Prop := converters.Pairwise (·.name < ·.name)

theorem sorted_insert {converter : Converter} {converters : List Converter}
    (sorted : Sorted converters) (fresh : ∀ x ∈ converters, x.name ≠ converter.name) :
    Sorted (insert converter converters) := by
  induction converters with
  | nil => simp [insert, Sorted]
  | cons first others ih =>
    obtain ⟨below, sortedOthers⟩ := List.pairwise_cons.1 sorted
    simp only [insert]
    split
    · next before =>
      refine List.pairwise_cons.2 ⟨fun x hx => ?_, sorted⟩
      rcases List.mem_cons.1 hx with rfl | hx
      · exact before
      · exact List.lt_trans before (below x hx)
    · next after =>
      refine List.pairwise_cons.2
        ⟨fun x hx => ?_, ih sortedOthers fun x hx => fresh x (List.mem_cons_of_mem _ hx)⟩
      rcases mem_insert.1 hx with rfl | hx
      · exact Decidable.byContradiction fun later =>
          fresh first List.mem_cons_self (List.le_antisymm after later)
      · exact below x hx

end Registry

/-- The converters that a tool knows, in the order of their names by code points. -/
structure Registry where
  converters : List Converter
  sorted : Registry.Sorted converters
  acceptable : ∀ x ∈ converters, Registry.nameRefusal? x.name = none

namespace Registry

@[ext]
theorem ext {registry registry' : Registry} (h : registry.converters = registry'.converters) :
    registry = registry' := by
  cases registry
  cases registry'
  simp_all

def empty : Registry := ⟨[], .nil, by simp⟩

def names (registry : Registry) : List Text := registry.converters.map (·.name)

def size (registry : Registry) : Nat := registry.converters.length

def isEmpty (registry : Registry) : Bool := registry.converters.isEmpty

def get? (registry : Registry) (name : Text) : Option Converter :=
  registry.converters.find? (·.name == name)

/-- A name that is no name at all is refused first, then a reserved one, then a taken one. -/
def refusal? (registry : Registry) (name : Text) : Option Refusal :=
  match nameRefusal? name with
  | some refusal => some refusal
  | none => if registry.names.contains name then some (.takenName name) else none

theorem nameRefusal?_of_refusal? {registry : Registry} {name : Text}
    (h : registry.refusal? name = none) : nameRefusal? name = none := by
  unfold refusal? at h
  split at h
  · cases h
  · assumption

theorem fresh_of_refusal? {registry : Registry} {name : Text}
    (h : registry.refusal? name = none) : ∀ x ∈ registry.converters, x.name ≠ name := by
  intro x hx taken
  have member : name ∈ registry.names := List.mem_map.2 ⟨x, hx, taken⟩
  simp [refusal?, nameRefusal?_of_refusal? h, member] at h

def register (registry : Registry) (converter : Converter) : Except Refusal Registry :=
  match h : registry.refusal? converter.name with
  | some refusal => .error refusal
  | none => .ok
    { converters := insert converter registry.converters
      sorted := sorted_insert registry.sorted (fresh_of_refusal? h)
      acceptable := fun x hx => by
        rcases mem_insert.1 hx with rfl | hx
        · exact nameRefusal?_of_refusal? h
        · exact registry.acceptable x hx }

/-- Registers one converter after another up to the first refusal. What was registered before it
stays. -/
def registerEach (registry : Registry) : List Converter → Registry × Option Refusal
  | [] => (registry, none)
  | converter :: others =>
    match registry.register converter with
    | .ok registry => registerEach registry others
    | .error refusal => (registry, some refusal)

end Registry

end IrConvert
