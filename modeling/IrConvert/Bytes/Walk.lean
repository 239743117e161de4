import IrConvert.Outcome

namespace IrConvert.Bytes

/-- The place at the end of the bytes, or before a byte that can start a character. -/
def Boundary (bytes : ByteArray) (offset : Nat) : Prop :=
  offset = bytes.size ∨ ∃ h : offset < bytes.size, bytes[offset].IsUTF8FirstByte

instance : DecidableRel Boundary := fun bytes offset =>
  inferInstanceAs (Decidable (offset = bytes.size ∨
    ∃ h : offset < bytes.size, bytes[offset].IsUTF8FirstByte))

/-- A range of the bytes that holds whole characters. -/
structure Sliceable (bytes : ByteArray) (start stop : Nat) : Prop where
  start_le : start ≤ stop
  stop_le : stop ≤ bytes.size
  start_boundary : Boundary bytes start
  stop_boundary : Boundary bytes stop

instance (bytes : ByteArray) (start stop : Nat) : Decidable (Sliceable bytes start stop) :=
  decidable_of_iff (start ≤ stop ∧ stop ≤ bytes.size ∧ Boundary bytes start ∧ Boundary bytes stop)
    ⟨fun h => ⟨h.1, h.2.1, h.2.2.1, h.2.2.2⟩,
      fun h => ⟨h.start_le, h.stop_le, h.start_boundary, h.stop_boundary⟩⟩

inductive Access where
  | slice (bytes : ByteArray) (start stop : Nat)
  | item (count number : Nat)

def Access.Sound : Access → Prop
  | slice bytes start stop => Sliceable bytes start stop
  | item count number => number < count

/-- An outcome with the places on the way to it. A failure is a message. It crashes exactly if it
goes to a place that is not there, and then it goes to no further one. -/
structure Walk (α : Type) where
  accesses : List Access
  outcome : Outcome ByteArray α
  crashed_iff : outcome = .crashed ↔ ∃ access ∈ accesses, ¬ access.Sound

namespace Walk

variable {α β : Type}

theorem sound_of_ne_crashed {walk : Walk α} (h : walk.outcome ≠ .crashed) :
    ∀ access ∈ walk.accesses, access.Sound := by
  intro access haccess
  apply Classical.byContradiction
  intro hnot
  exact h (walk.crashed_iff.2 ⟨access, haccess, hnot⟩)

def accessesAfter (outcome : Outcome ByteArray α) (next : α → Walk β) : List Access :=
  match outcome with
  | .done value => (next value).accesses
  | .failed _ => []
  | .crashed => []

theorem bind_crashed_iff (walk : Walk α) (next : α → Walk β) :
    (walk.outcome.bind fun value => (next value).outcome) = .crashed ↔
      ∃ access ∈ walk.accesses ++ accessesAfter walk.outcome next, ¬ access.Sound := by
  have hwalk := walk.crashed_iff
  cases houtcome : walk.outcome with
  | done value =>
    -- all places so far are there, so one that is not is one of those that follow
    have hne : walk.outcome ≠ .crashed := by simp [houtcome]
    have hsound := sound_of_ne_crashed hne
    have hnext := (next value).crashed_iff
    simp only [Outcome.bind, accessesAfter, List.mem_append, hnext]
    constructor
    · rintro ⟨access, haccess, hnot⟩
      exact ⟨access, Or.inr haccess, hnot⟩
    · rintro ⟨access, hfirst | hsecond, hnot⟩
      · exact absurd (hsound access hfirst) hnot
      · exact ⟨access, hsecond, hnot⟩
  | failed message => simpa [Outcome.bind, accessesAfter, houtcome] using hwalk
  | crashed => simpa [Outcome.bind, accessesAfter, houtcome] using hwalk

def bind (walk : Walk α) (next : α → Walk β) : Walk β where
  accesses := walk.accesses ++ accessesAfter walk.outcome next
  outcome := walk.outcome.bind fun value => (next value).outcome
  crashed_iff := bind_crashed_iff walk next

instance : Monad Walk where
  pure value :=
    { accesses := []
      outcome := .done value
      crashed_iff := by simp }
  bind := bind

def fail (message : ByteArray) : Walk α where
  accesses := []
  outcome := .failed message
  crashed_iff := by simp

@[simp]
theorem outcome_pure (value : α) : (pure value : Walk α).outcome = .done value := rfl

@[simp]
theorem outcome_fail (message : ByteArray) :
    (fail message : Walk α).outcome = .failed message := rfl

theorem outcome_bind_of_done {walk : Walk α} {value : α} (h : walk.outcome = .done value)
    (next : α → Walk β) : (walk >>= next).outcome = (next value).outcome := by
  have hbind : (walk >>= next).outcome = walk.outcome.bind fun value => (next value).outcome := rfl
  rw [hbind, h]
  rfl

end Walk

def slice (bytes : ByteArray) (start stop : Nat) : Walk ByteArray where
  accesses := [.slice bytes start stop]
  outcome := if Sliceable bytes start stop then .done (bytes.extract start stop) else .crashed
  crashed_iff := by simp [Access.Sound]

def item {α : Type} (list : List α) (number : Nat) : Walk α where
  accesses := [.item list.length number]
  outcome := Outcome.ofOption list[number]?
  crashed_iff := by
    by_cases h : number < list.length
    · simp [Access.Sound, h, Outcome.ofOption]
    · simp [Access.Sound, h, Outcome.ofOption]

theorem outcome_item {α : Type} {list : List α} {number : Nat} {value : α}
    (h : list[number]? = some value) : (item list number).outcome = .done value :=
  congrArg Outcome.ofOption h

end IrConvert.Bytes
