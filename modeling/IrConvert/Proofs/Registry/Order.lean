import IrConvert.Conversion
import IrConvert.Proofs.Registry.History
import Mathlib.Data.Fintype.Basic
import Mathlib.Data.List.Perm.Basic
import Mathlib.Logic.Equiv.Fin.Rotate
import Mathlib.Tactic.FinCases

namespace IrConvert

namespace Registry

variable {registry : Registry} {steps steps' : List Converter}

def afterEach (registry : Registry) (steps : List Converter) : Registry :=
  registry.after (steps.map .one)

/-- The answer to the registration at a place among others. -/
def answer? (registry : Registry) (steps : List Converter) (i : Fin steps.length) :
    Option Refusal :=
  ((registry.afterEach (steps.take i)).apply (.one steps[i])).2

/-- The same registrations in another order, in which those of one name keep theirs. -/
structure Reordering (steps steps' : List Converter) where
  place : Fin steps.length ≃ Fin steps'.length
  same : ∀ i, steps'[place i] = steps[i]
  keeps : ∀ i j, steps[i].name = steps[j].name → i < j → place i < place j

theorem mem_names_apply_one (registry : Registry) (converter : Converter) (name : Text) :
    name ∈ (registry.apply (.one converter)).1.names ↔
      name ∈ registry.names ∨ nameRefusal? name = none ∧ converter.name = name := by
  cases hrefusal : registry.refusal? converter.name with
  | none =>
    obtain ⟨next, hnext, -⟩ := exists_register hrefusal
    rw [apply_one, hnext]
    dsimp only
    rw [mem_names_of_register hnext, or_comm]
    refine or_congr_right (iff_and_self.2 ?_)
    rintro rfl
    exact nameRefusal?_of_refusal? hrefusal
  | some refusal =>
    rw [apply_one, register_of_refused hrefusal]
    refine (or_iff_left_of_imp ?_).symm
    rintro ⟨hname, rfl⟩
    -- an acceptable name is refused only if it is taken
    rw [refusal?_of_nameRefusal? _ hname] at hrefusal
    by_contra hfree
    rw [if_neg hfree] at hrefusal
    cases hrefusal

theorem mem_names_afterEach (registry : Registry) (steps : List Converter) (name : Text) :
    name ∈ (registry.afterEach steps).names ↔
      name ∈ registry.names ∨ nameRefusal? name = none ∧ ∃ step ∈ steps, step.name = name := by
  induction steps generalizing registry with
  | nil => simp [afterEach, after]
  | cons step steps ih =>
    change name ∈ ((registry.apply (.one step)).1.afterEach steps).names ↔ _
    rw [ih, mem_names_apply_one, or_assoc, ← and_or_left, List.exists_mem_cons_iff]

theorem exists_mem_take_iff {i : Fin steps.length} {p : Converter → Prop} :
    (∃ step ∈ steps.take i, p step) ↔ ∃ j < i, p steps[j] := by
  simp only [List.mem_take_iff_getElem]
  constructor
  · rintro ⟨_, ⟨j, hj, rfl⟩, hp⟩
    exact ⟨⟨j, by omega⟩, by change j < i.val; omega, hp⟩
  · rintro ⟨j, hj, hp⟩
    exact ⟨_, ⟨j, by omega, rfl⟩, hp⟩

/-- An answer rests on the name of the registration, on the names in the registry and on the names
of the earlier registrations. -/
theorem answer?_eq (registry : Registry) (steps : List Converter) (i : Fin steps.length) :
    registry.answer? steps i =
      match nameRefusal? steps[i].name with
      | some refusal => some refusal
      | none =>
        if steps[i].name ∈ registry.names ∨ ∃ j < i, steps[j].name = steps[i].name then
          some (.takenName steps[i].name)
        else none := by
  rw [answer?, snd_apply_one]
  cases hname : nameRefusal? steps[i].name with
  | some refusal => rw [refusal?, hname]
  | none =>
    rw [refusal?_of_nameRefusal? _ hname]
    simp only [mem_names_afterEach, hname, true_and, exists_mem_take_iff]

theorem mem_apply_one (registry : Registry) (converter x : Converter) :
    x ∈ (registry.apply (.one converter)).1.converters ↔
      x ∈ registry.converters ∨ converter = x ∧ (registry.apply (.one converter)).2 = none := by
  rw [apply_one]
  cases hregister : registry.register converter with
  | ok next => simp [mem_of_register hregister, or_comm, eq_comm]
  | error refusal => simp

theorem mem_afterEach (registry : Registry) (steps : List Converter) (x : Converter) :
    x ∈ (registry.afterEach steps).converters ↔
      x ∈ registry.converters ∨ ∃ i : Fin steps.length, steps[i] = x ∧
        registry.answer? steps i = none := by
  induction steps generalizing registry with
  | nil => simp [afterEach, after]
  | cons step steps ih =>
    change x ∈ ((registry.apply (.one step)).1.afterEach steps).converters ↔ _
    rw [ih, mem_apply_one, or_assoc]
    refine or_congr_right ?_
    exact (@Fin.exists_fin_succ steps.length fun i =>
      (step :: steps)[i] = x ∧ registry.answer? (step :: steps) i = none).symm

theorem ext_of_mem {registry' : Registry}
    (h : ∀ x, x ∈ registry.converters ↔ x ∈ registry'.converters) : registry = registry' := by
  refine ext (List.Perm.eq_of_pairwise ?_ registry.sorted registry'.sorted ?_)
  · intro x y _ _ hlt hgt
    exact absurd (List.lt_trans hlt hgt) (List.lt_irrefl _)
  · have hnodup := registry.nodup_names.of_map
    have hnodup' := registry'.nodup_names.of_map
    exact (List.perm_ext_iff_of_nodup hnodup hnodup').2 h

namespace Reordering

theorem exists_before_iff (moved : Reordering steps steps') (i : Fin steps.length) :
    (∃ j < moved.place i, steps'[j].name = steps[i].name) ↔
      ∃ j < i, steps[j].name = steps[i].name := by
  rw [moved.place.surjective.exists]
  simp only [moved.same]
  refine exists_congr fun j => and_congr_left fun hname => ?_
  constructor
  · intro hlt
    by_contra hle
    rcases (not_lt.1 hle).eq_or_lt with rfl | hgt
    · exact lt_irrefl _ hlt
    · exact lt_asymm hlt (moved.keeps i j hname.symm hgt)
  · exact moved.keeps j i hname

theorem answer?_place (moved : Reordering steps steps') (registry : Registry)
    (i : Fin steps.length) :
    registry.answer? steps' (moved.place i) = registry.answer? steps i := by
  rw [answer?_eq, answer?_eq]
  simp only [moved.same, moved.exists_before_iff]

theorem afterEach_eq (moved : Reordering steps steps') (registry : Registry) :
    registry.afterEach steps' = registry.afterEach steps := by
  apply ext_of_mem
  intro x
  rw [mem_afterEach, mem_afterEach, moved.place.surjective.exists]
  simp only [moved.same, moved.answer?_place]

end Reordering

/-- Two registries that nothing made of them tells apart. -/
structure Indistinct (registry other : Registry) : Prop where
  eq : registry = other
  names : registry.names = other.names
  converters : registry.converters = other.converters
  arguments : registry.arguments = other.arguments
  size : registry.size = other.size
  get? : ∀ name, registry.get? name = other.get? name
  command : ∀ about, registry.command about = other.command about
  optionsOf : ∀ about words, registry.optionsOf (registry.command about) words =
    other.optionsOf (other.command about) words
  convert : ∀ options source, registry.convert options source = other.convert options source

theorem Indistinct.refl (registry : Registry) : registry.Indistinct registry :=
  ⟨rfl, rfl, rfl, rfl, rfl, fun _ => rfl, fun _ => rfl, fun _ _ => rfl, fun _ _ => rfl⟩

/-- Neither the answers nor anything that is made of the registry depend on the order. -/
theorem reordering_unobservable (registry : Registry) (moved : Reordering steps steps') :
    (∀ i, registry.answer? steps' (moved.place i) = registry.answer? steps i) ∧
      (registry.afterEach steps').Indistinct (registry.afterEach steps) := by
  refine ⟨moved.answer?_place registry, ?_⟩
  rw [moved.afterEach_eq registry]
  exact .refl _

def passingTo (name : Text) : Converter := { passingAs name with description := "Pass on, too" }

/-- The last registration comes first, and of two converters of one name the first stays it. -/
def lastFirst :
    Reordering [passingAs "b".toList, passingTo "b".toList, passingAs [], passingAs "a".toList]
      [passingAs "a".toList, passingAs "b".toList, passingTo "b".toList, passingAs []] where
  place := finRotate 4
  same := fun (i : Fin 4) => by fin_cases i <;> rfl
  keeps := fun (i j : Fin 4) => by revert i j; decide

theorem reordering_unobservable_of_twins :
    let steps := [passingAs "a".toList, passingAs "b".toList, passingTo "b".toList, passingAs []]
    empty.answer? steps 2 = some (.takenName "b".toList) ∧
      (empty.afterEach steps).get? "b".toList = some (passingAs "b".toList) := by
  intro steps
  obtain ⟨hanswer, hsame⟩ := reordering_unobservable empty lastFirst
  exact ⟨(hanswer (1 : Fin 4)).trans rfl, (hsame.get? _).trans rfl⟩

end Registry

end IrConvert
