namespace IrConvert

variable {ε α β : Type}

theorem bind_eq_ok_iff {first : Except ε α} {next : α → Except ε β} {value : β} :
    first >>= next = .ok value ↔ ∃ found, first = .ok found ∧ next found = .ok value := by
  cases first with
  | error reason =>
    constructor
    · intro h
      cases h
    · intro h
      obtain ⟨found, hfound, -⟩ := h
      cases hfound
  | ok found =>
    constructor
    · intro h
      exact ⟨found, rfl, h⟩
    · intro h
      obtain ⟨other, hother, hnext⟩ := h
      obtain rfl := Except.ok.inj hother
      exact hnext

theorem mapError_eq_ok_iff {first : Except ε α} {other : ε → β} {value : α} :
    first.mapError other = .ok value ↔ first = .ok value := by
  cases first with
  | error cause => constructor <;> nofun
  | ok found =>
    constructor
    · intro h
      rw [Except.ok.inj h]
    · intro h
      obtain rfl := Except.ok.inj h
      rfl

theorem mapError_eq_error_iff {first : Except ε α} {other : ε → β} {reason : β} :
    first.mapError other = .error reason ↔
      ∃ cause, first = .error cause ∧ other cause = reason := by
  cases first with
  | error cause =>
    constructor
    · intro h
      exact ⟨cause, rfl, Except.error.inj h⟩
    · intro h
      obtain ⟨other, hother, rfl⟩ := h
      obtain rfl := Except.error.inj hother
      rfl
  | ok found =>
    constructor
    · nofun
    · intro h
      obtain ⟨cause, hcause, -⟩ := h
      cases hcause

/-- What is done to a value first shows in all that comes after it. -/
theorem bind_map_eq {α' β' : Type} {first : Except ε α} {next : α → Except ε β}
    {next' : α' → Except ε β'} {f : α → α'} {g : β → β'}
    (h : ∀ found, first = .ok found → next' (f found) = (next found).map g) :
    first.map f >>= next' = (first >>= next).map g := by
  cases first with
  | error reason => rfl
  | ok found =>
    have hfound := h found rfl
    exact hfound

/-- What each step keeps is kept by all of them together. -/
theorem foldlM_preserves {kept : α → Prop} {step : α → β → Except ε α}
    (hstep : ∀ start next item, kept start → step start item = .ok next → kept next)
    {items : List β} {start last : α} (hstart : kept start)
    (h : items.foldlM step start = .ok last) : kept last := by
  induction items generalizing start with
  | nil =>
    obtain rfl := Except.ok.inj h
    exact hstart
  | cons item items ih =>
    rw [List.foldlM_cons, bind_eq_ok_iff] at h
    obtain ⟨next, hnext, hlast⟩ := h
    exact ih (hstep start next item hstart hnext) hlast

end IrConvert
