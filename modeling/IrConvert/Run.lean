import IrConvert.Event
import IrConvert.Outcome

namespace IrConvert

/-- An outcome with the events on the way to it, which are kept however the run ends. -/
structure Run (α : Type) where
  log : List Event
  outcome : Outcome Failure α

namespace Run

variable {α β : Type}

def ofOutcome (outcome : Outcome Failure α) : Run α := ⟨[], outcome⟩

def emit (event : Event) : Run Unit := ⟨[event], .done ()⟩

def fail (failure : Failure) : Run α := ofOutcome (.failed failure)

def bind (run : Run α) (next : α → Run β) : Run β :=
  match run.outcome with
  | .done value => ⟨run.log ++ (next value).log, (next value).outcome⟩
  | .failed failure => ⟨run.log, .failed failure⟩
  | .crashed => ⟨run.log, .crashed⟩

instance : Monad Run where
  pure value := ofOutcome (.done value)
  bind := bind

@[ext]
theorem ext {run run' : Run α} (hlog : run.log = run'.log) (h : run.outcome = run'.outcome) :
    run = run' := by
  cases run
  cases run'
  simp_all

theorem bind_of_done {run : Run α} {value : α} (next : α → Run β) (h : run.outcome = .done value) :
    run >>= next = ⟨run.log ++ (next value).log, (next value).outcome⟩ := by
  simp [Bind.bind, bind, h]

instance : LawfulMonad Run :=
  LawfulMonad.mk' Run
    (fun run => by
      rcases run with ⟨log, _ | _ | _⟩ <;>
        simp [Functor.map, bind, ofOutcome])
    (fun value next => by simp [Bind.bind, bind, pure, ofOutcome])
    (fun run next last => by
      rcases run with ⟨log, value | _ | _⟩
      · simp only [Bind.bind, bind]
        cases (next value).outcome <;> simp
      · rfl
      · rfl)

end Run

end IrConvert
