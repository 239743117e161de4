import IrConvert.Proofs.CommandLine.Raised
import Mathlib.Data.List.Find

namespace IrConvert.CommandLine

namespace Given

variable {given : Given} {id name : Text}

/-- The flag is raised before all others. -/
def raised (given : Given) (name : Text) : Given := { given with flags := name :: given.flags }

theorem has_raised (h : id ≠ name) : (given.raised name).has id = given.has id := by
  have hflags : (name :: given.flags).contains id = given.flags.contains id := by
    rw [List.contains_cons, beq_eq_false_iff_ne.2 h, Bool.false_or]
  unfold has raised
  rw [hflags]

theorem addFlag_raised (h : id ≠ name) :
    (given.raised name).addFlag id = (given.addFlag id).map (·.raised name) := by
  unfold addFlag
  rw [has_raised h]
  split <;> rfl

theorem addValue_raised (h : id ≠ name) (value : Text) :
    (given.raised name).addValue id value = (given.addValue id value).map (·.raised name) := by
  unfold addValue
  rw [has_raised h]
  split <;> rfl

end Given

namespace Progress

variable {command : Command} {progress : Progress} {name : Text}

def raised (progress : Progress) (name : Text) : Progress :=
  { progress with given := progress.given.raised name }

/-- What is not entered yet is no value for the flag. -/
def Free (progress : Progress) (name : Text) : Prop :=
  ∀ pending, progress.pending = some pending → pending.id ≠ name

theorem settle_raised (hfree : progress.Free name) :
    (progress.raised name).settle = progress.settle.map (·.raised name) := by
  obtain ⟨given, pending, escaped⟩ := progress
  match pending with
  | none => rfl
  | some ⟨id, none⟩ => rfl
  | some ⟨id, some value⟩ => exact Given.addValue_raised (hfree _ rfl) value

theorem enterFlag_raised (hfree : progress.Free name) {id : Text} (h : id ≠ name) :
    (progress.raised name).enterFlag id = (progress.enterFlag id).map (·.raised name) := by
  unfold enterFlag
  rw [settle_raised hfree]
  refine bind_map_eq fun settled _ => ?_
  rw [Given.addFlag_raised h]
  exact bind_map_eq fun given _ => rfl

theorem enterValue_raised (hfree : progress.Free name) {id : Text} (h : id ≠ name)
    (value : Text) :
    (progress.raised name).enterValue id value =
      (progress.enterValue id value).map (·.raised name) := by
  unfold enterValue
  rw [settle_raised hfree]
  refine bind_map_eq fun settled _ => ?_
  rw [Given.addValue_raised h]
  exact bind_map_eq fun given _ => rfl

theorem await_raised (hfree : progress.Free name) (id : Text) :
    (progress.raised name).await id = (progress.await id).map (·.raised name) := by
  unfold await
  rw [settle_raised hfree]
  exact bind_map_eq fun settled _ => rfl

theorem leave_raised (hfree : progress.Free name) (error : UsageError) :
    (progress.raised name).leave error = (progress.leave error).map (·.raised name) := by
  unfold leave
  rw [settle_raised hfree]
  exact bind_map_eq fun settled _ => rfl

theorem enter_raised (hfree : progress.Free name) {argument : Argument} {value : Option Text}
    (h : argument.id = name → argument.action = .raiseFlag ∧ value ≠ none) :
    (progress.raised name).enter argument value =
      (progress.enter argument value).map (·.raised name) := by
  have hid (hother : argument.action ≠ .raiseFlag ∨ value = none) : argument.id ≠ name := by
    intro hid
    obtain ⟨haction, hvalue⟩ := h hid
    exact hother.elim (absurd haction) hvalue
  unfold enter
  cases haction : argument.action with
  | raiseFlag =>
    cases value with
    | none => exact enterFlag_raised hfree (hid (.inr rfl))
    | some value => rfl
  | storeValue =>
    cases value with
    | none => exact await_raised hfree _
    | some value => exact enterValue_raised hfree (hid (.inl (by simp [haction]))) value
  | showHelp =>
    cases value with
    | none => exact leave_raised hfree _
    | some value => rfl
  | showVersion =>
    cases value with
    | none => exact leave_raised hfree _
    | some value => rfl

section HasFlag

variable (hflag : command.HasFlag name)

include hflag

theorem long_raised (hfree : progress.Free name) {long : Text} {value : Option Text}
    (h : long = name → value ≠ none) :
    (progress.raised name).long command long value =
      (progress.long command long value).map (·.raised name) := by
  unfold Progress.long
  cases hfound : command.ofLong? long with
  | none => rfl
  | some argument =>
    refine enter_raised hfree fun hid => ?_
    obtain ⟨hlong, -, haction⟩ := hflag.only argument (List.mem_of_find?_eq_some hfound) hid
    have hbeq := List.find?_some hfound
    refine ⟨haction, h (Option.some.inj ?_)⟩
    rw [← eq_of_beq hbeq, hlong]

/-- No letter and no value is for the flag. -/
theorem Fits.free (hfits : progress.Fits command) : progress.Free name := by
  intro pending hpending hid
  obtain ⟨argument, hmem, hargument, hvalue⟩ := hfits.pending pending hpending
  obtain ⟨hlong, -, haction⟩ := hflag.only argument hmem (hargument.trans hid)
  rcases hvalue with htakes | hpositional
  · rw [Argument.takesValue, haction] at htakes
    cases htakes
  · rw [Argument.isPositional, hlong] at hpositional
    cases hpositional

theorem short_raised (hfits : progress.Fits command) (letters : Text) :
    (progress.raised name).short command letters =
      (progress.short command letters).map (·.raised name) := by
  induction letters generalizing progress with
  | nil => rfl
  | cons letter rest ih =>
    rw [Progress.short, Progress.short]
    cases hfound : command.ofShort? letter with
    | none => rfl
    | some argument =>
      have hmem := List.mem_of_find?_eq_some hfound
      have hbeq := List.find?_some hfound
      have hshort : argument.short = some letter := eq_of_beq hbeq
      have hid : argument.id ≠ name := by
        intro hid
        obtain ⟨-, hnone, -⟩ := hflag.only argument hmem hid
        cases hshort.symm.trans hnone
      have henter (value : Option Text) :=
        @enter_raised progress name (hfits.free hflag) argument value (absurd · hid)
      dsimp only
      split
      · exact henter (shortValue rest)
      · rw [henter none]
        exact bind_map_eq fun next hnext => ih (hfits.enter hmem hnext)

theorem positional_raised (hfits : progress.Fits command) (text : Text) :
    (progress.raised name).positional command text =
      (progress.positional command text).map (·.raised name) := by
  have hid : ∀ argument ∈ command.positionals, argument.id ≠ name := by
    intro argument hmem hid
    obtain ⟨hall, hpositional⟩ := List.mem_filter.1 hmem
    obtain ⟨hlong, -, -⟩ := hflag.only argument (List.mem_append_left _ hall) hid
    rw [Argument.isPositional, hlong] at hpositional
    cases hpositional
  have hfind : (command.positionals.find? fun argument =>
        !(progress.raised name).given.has argument.id) =
      command.positionals.find? fun argument => !progress.given.has argument.id :=
    List.find?_congr fun argument hmem => congrArg not (Given.has_raised (hid argument hmem))
  rw [Progress.positional, Progress.positional, hfind]
  cases hfound : command.positionals.find? fun argument => !progress.given.has argument.id with
  | none => rfl
  | some argument =>
    exact enterValue_raised (hfits.free hflag)
      (hid argument (List.mem_of_find?_eq_some hfound)) text

theorem plain_raised (hfits : progress.Fits command) (text : Text) :
    (progress.raised name).plain command text =
      (progress.plain command text).map (·.raised name) := by
  have hpositional := positional_raised hflag hfits text
  obtain ⟨given, pending, escaped⟩ := progress
  match pending with
  | none => exact hpositional
  | some ⟨id, none⟩ => rfl
  | some ⟨id, some value⟩ => exact hpositional

theorem step_raised (hfits : progress.Fits command) {text : Text}
    (h : Word.ofText text ≠ .long name none) :
    (progress.raised name).step command text =
      (progress.step command text).map (·.raised name) := by
  rw [Progress.step, Progress.step]
  change (if progress.escaped = true then _ else _) = _
  split
  · exact positional_raised hflag hfits text
  · cases hword : Word.ofText text with
    | escape => rfl
    | long long value =>
      refine long_raised hflag (hfits.free hflag) ?_
      rintro rfl rfl
      exact h hword
    | short letters => exact short_raised hflag hfits letters
    | plain text => exact plain_raised hflag hfits text

theorem foldlM_raised (hfits : progress.Fits command) {words : List Text}
    (h : ∀ word ∈ words, Word.ofText word ≠ .long name none) :
    words.foldlM (Progress.step command) (progress.raised name) =
      (words.foldlM (Progress.step command) progress).map (·.raised name) := by
  induction words generalizing progress with
  | nil => rfl
  | cons word words ih =>
    obtain ⟨hword, hwords⟩ := List.forall_mem_cons.1 h
    rw [List.foldlM_cons, List.foldlM_cons, step_raised hflag hfits hword]
    exact bind_map_eq fun next hnext => ih (hfits.step hnext) hwords

end HasFlag

end Progress

theorem Group.present_raised {group : Group} {given : Given} {name : Text}
    (h : name ∉ group.members) : group.present (given.raised name) = group.present given :=
  List.filter_congr fun _ hmem => Given.has_raised (ne_of_mem_of_not_mem hmem h)

namespace Command

variable {command : Command} {name : Text} {words : List Text}

def Undemanded (command : Command) (name : Text) : Prop :=
  ∀ group ∈ command.groups,
    name ∉ group.members ∨ group.required = false ∧ group.exclusive = false

theorem groupError?_raised (h : command.Undemanded name) (given : Given) :
    command.groupError? (given.raised name) = command.groupError? given := by
  have hsame : ∀ group ∈ command.groups,
      group.exclusiveError? (given.raised name) = group.exclusiveError? given ∧
        group.requiredError? (given.raised name) = group.requiredError? given := by
    intro group hgroup
    unfold Group.exclusiveError? Group.requiredError?
    rcases h group hgroup with hfree | ⟨hrequired, hexclusive⟩
    · rw [Group.present_raised hfree]
      exact ⟨rfl, rfl⟩
    · rw [hrequired, hexclusive]
      exact ⟨rfl, rfl⟩
  unfold groupError?
  simp only [← List.head?_filterMap]
  rw [List.filterMap_congr fun group hgroup => (hsame group hgroup).1,
    List.filterMap_congr fun group hgroup => (hsame group hgroup).2]

theorem readWords_leading (hflag : command.HasFlag name) (hne : name ≠ []) (hfree : '=' ∉ name)
    (h : "--".toList ++ name ∉ words) :
    command.readWords (("--".toList ++ name) :: words) =
      (command.readWords words).map (·.raised name) := by
  have hwords : ∀ word ∈ words, Word.ofText word ≠ .long name none := by
    intro word hmem hword
    obtain ⟨-, -, rfl⟩ := Word.ofText_eq_long_iff.1 hword
    exact h hmem
  have hstep : Progress.start.step command ("--".toList ++ name) =
      .ok (Progress.start.raised name) := hflag.step hne hfree rfl
  unfold readWords
  rw [List.foldlM_cons, hstep]
  change (words.foldlM (Progress.step command) (Progress.start.raised name) >>= _) = _
  rw [Progress.foldlM_raised hflag .start hwords]
  refine bind_map_eq fun last hlast => Progress.settle_raised ?_
  have hfits : last.Fits command :=
    foldlM_preserves (fun start next word hstart => hstart.step) .start hlast
  exact hfits.free hflag

theorem read_leading (hflag : command.HasFlag name) (hdemand : command.Undemanded name)
    (hne : name ≠ []) (hfree : '=' ∉ name) (h : "--".toList ++ name ∉ words) (program : Text) :
    command.read (program :: ("--".toList ++ name) :: words) =
      (command.read (program :: words)).map (·.raised name) := by
  unfold read
  rw [List.tail_cons, List.tail_cons, readWords_leading hflag hne hfree h]
  refine bind_map_eq fun given _ => ?_
  rw [groupError?_raised hdemand]
  cases command.groupError? given <;> rfl

end Command

end IrConvert.CommandLine
