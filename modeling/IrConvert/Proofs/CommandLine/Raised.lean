import IrConvert.Proofs.CommandLine.Selection
import Mathlib.Data.List.TakeWhile

namespace IrConvert.CommandLine

def optionWords (words : List Text) : List Text := words.takeWhile (· != ['-', '-'])

/-- One of the words is a long name without a value. -/
def Raises (words : List Text) (name : Text) : Prop :=
  ∃ word ∈ optionWords words, Word.ofText word = .long name none

namespace Word

theorem ofText_eq_escape_iff {text : Text} : ofText text = escape ↔ text = ['-', '-'] := by
  constructor
  · intro h
    unfold ofText at h
    split at h
    · rfl
    all_goals cases h
  · intro h
    rw [h]
    rfl

theorem attached?_eq_none_iff {text : Text} : attached? text = none ↔ '=' ∉ text := by
  have hnil : text.dropWhile (· != '=') = [] ↔ '=' ∉ text := by
    rw [List.dropWhile_eq_nil_iff]
    constructor
    · intro h hmem
      simpa using h '=' hmem
    · intro h c hc
      simpa using ne_of_mem_of_not_mem hc h
  rw [attached?, ← hnil]
  cases text.dropWhile (· != '=') <;> simp

theorem ne_equals_of_not_mem {text : Text} (h : '=' ∉ text) : ∀ c ∈ text, (c != '=') = true := by
  intro c hc
  simpa using ne_of_mem_of_not_mem hc h

theorem takeWhile_of_not_mem {text : Text} (h : '=' ∉ text) : text.takeWhile (· != '=') = text :=
  List.takeWhile_eq_self_iff.2 (ne_equals_of_not_mem h)

theorem ofText_eq_long_iff {text name : Text} :
    ofText text = long name none ↔ name ≠ [] ∧ '=' ∉ name ∧ text = '-' :: '-' :: name := by
  constructor
  · intro h
    unfold ofText at h
    split at h
    · cases h
    · next rest hrest =>
      obtain ⟨hname, hvalue⟩ := Word.long.inj h
      have hfree := attached?_eq_none_iff.1 hvalue
      rw [takeWhile_of_not_mem hfree] at hname
      subst hname
      exact ⟨fun hnil => hrest (by rw [hnil]), hfree, rfl⟩
    all_goals cases h
  · intro h
    obtain ⟨hne, hfree, rfl⟩ := h
    obtain ⟨c, rest, rfl⟩ := List.exists_cons_of_ne_nil hne
    show long _ _ = _
    rw [takeWhile_of_not_mem hfree, attached?_eq_none_iff.2 hfree]

end Word

/-- A name with an equals sign in it is no name of a flag: what follows the sign is a value. -/
theorem raises_iff {words : List Text} {name : Text} :
    Raises words name ↔ name ≠ [] ∧ '=' ∉ name ∧ '-' :: '-' :: name ∈ optionWords words := by
  unfold Raises
  simp only [Word.ofText_eq_long_iff]
  constructor
  · intro h
    obtain ⟨word, hword, hne, hfree, rfl⟩ := h
    exact ⟨hne, hfree, hword⟩
  · intro h
    obtain ⟨hne, hfree, hword⟩ := h
    exact ⟨_, hword, hne, hfree, rfl⟩

theorem raises_nil {name : Text} : ¬Raises [] name := nofun

theorem raises_cons {word : Text} {words : List Text} {name : Text} :
    Raises (word :: words) name ↔ word ≠ ['-', '-'] ∧
      (Word.ofText word = .long name none ∨ Raises words name) := by
  unfold Raises optionWords
  by_cases h : word = ['-', '-']
  · simp [h]
  · simp [h]

/-- The argument with this id is a flag, and only its long name, which is the id, raises it. -/
structure Command.HasFlag (command : Command) (name : Text) : Prop where
  found : ∃ argument, command.ofLong? name = some argument ∧ argument.id = name ∧
    argument.action = .raiseFlag
  only : ∀ argument ∈ command.allArguments, argument.id = name →
    argument.long = some name ∧ argument.short = none ∧ argument.action = .raiseFlag

namespace Given

variable {given given' : Given} {id : Text}

theorem flags_of_addFlag (h : given.addFlag id = .ok given') :
    given'.flags = given.flags ++ [id] := by
  rw [addFlag] at h
  split at h
  · cases h
  · obtain rfl := Except.ok.inj h
    rfl

theorem addFlag_of_new (hnew : given.has id = false) :
    given.addFlag id = .ok { given with flags := given.flags ++ [id] } := by
  rw [addFlag, hnew]
  rfl

theorem addValue_of_new (hnew : given.has id = false) (value : Text) :
    given.addValue id value = .ok { given with values := given.values ++ [(id, value)] } := by
  rw [addValue, hnew]
  rfl

theorem flags_of_addValue {value : Text} (h : given.addValue id value = .ok given') :
    given'.flags = given.flags := by
  rw [addValue] at h
  split at h
  · cases h
  · obtain rfl := Except.ok.inj h
    rfl

end Given

namespace Progress

variable {command : Command} {progress progress' : Progress} {name : Text}

theorem flags_of_settle {given : Given} (h : progress.settle = .ok given) :
    given.flags = progress.given.flags := by
  rw [settle] at h
  split at h
  · obtain rfl := Except.ok.inj h
    rfl
  · cases h
  · exact Given.flags_of_addValue h

/-- Of the flags only the given ones are added, and positional words stay positional. -/
structure Adds (progress progress' : Progress) (flags : List Text) : Prop where
  flags_eq : progress'.given.flags = progress.given.flags ++ flags
  escaped_eq : progress'.escaped = progress.escaped

theorem adds_of_enterFlag {id : Text} (h : progress.enterFlag id = .ok progress') :
    progress.Adds progress' [id] := by
  obtain ⟨settled, hsettled, h⟩ := bind_eq_ok_iff.1 h
  obtain ⟨given, hgiven, h⟩ := bind_eq_ok_iff.1 h
  obtain rfl := Except.ok.inj h
  refine ⟨?_, rfl⟩
  rw [← flags_of_settle hsettled]
  exact Given.flags_of_addFlag hgiven

theorem adds_of_enterValue {id value : Text} (h : progress.enterValue id value = .ok progress') :
    progress.Adds progress' [] := by
  obtain ⟨settled, hsettled, h⟩ := bind_eq_ok_iff.1 h
  obtain ⟨given, hgiven, h⟩ := bind_eq_ok_iff.1 h
  obtain rfl := Except.ok.inj h
  refine ⟨?_, rfl⟩
  rw [← flags_of_settle hsettled, List.append_nil]
  exact Given.flags_of_addValue hgiven

theorem adds_of_await {id : Text} (h : progress.await id = .ok progress') :
    progress.Adds progress' [] := by
  obtain ⟨given, hgiven, h⟩ := bind_eq_ok_iff.1 h
  obtain rfl := Except.ok.inj h
  exact ⟨by rw [List.append_nil, ← flags_of_settle hgiven], rfl⟩

theorem Adds.mem_flags {flags : List Text} (h : progress.Adds progress' flags) (name : Text) :
    name ∈ progress'.given.flags ↔ name ∈ progress.given.flags ∨ name ∈ flags := by
  rw [h.flags_eq, List.mem_append]

theorem adds_of_enter {argument : Argument} {value : Option Text}
    (h : progress.enter argument value = .ok progress') :
    ∃ flags, progress.Adds progress' flags ∧ ∀ id, id ∈ flags ↔
      argument.action = .raiseFlag ∧ value = none ∧ id = argument.id := by
  unfold enter at h
  split at h
  · next value haction => exact ⟨[], adds_of_enterValue h, by simp⟩
  · next haction => exact ⟨[], adds_of_await h, by simp [haction]⟩
  · cases h
  · next haction => exact ⟨[argument.id], adds_of_enterFlag h, by simp [haction]⟩
  · exact absurd h (leave_ne_ok _)
  · exact absurd h (leave_ne_ok _)

section HasFlag

variable (hflag : command.HasFlag name)

include hflag

theorem adds_of_long {long : Text} {value : Option Text}
    (h : progress.long command long value = .ok progress') :
    ∃ flags, progress.Adds progress' flags ∧ (name ∈ flags ↔ long = name ∧ value = none) := by
  rw [Progress.long] at h
  split at h
  · next argument hfound =>
    obtain ⟨flags, hadds, hflags⟩ := adds_of_enter h
    refine ⟨flags, hadds, (hflags name).trans ?_⟩
    have hbeq := List.find?_some hfound
    have hlong : argument.long = some long := eq_of_beq hbeq
    constructor
    · intro hraised
      obtain ⟨-, hvalue, hid⟩ := hraised
      obtain ⟨hname, -, -⟩ := hflag.only argument (List.mem_of_find?_eq_some hfound) hid.symm
      exact ⟨Option.some.inj (hlong.symm.trans hname), hvalue⟩
    · intro hname
      obtain ⟨rfl, hvalue⟩ := hname
      obtain ⟨flag, hflagFound, hid, haction⟩ := hflag.found
      obtain rfl := Option.some.inj (hfound.symm.trans hflagFound)
      exact ⟨haction, hvalue, hid.symm⟩
  · cases h

/-- No letter stands for a flag that has none. -/
theorem adds_of_short {letters : Text} (h : progress.short command letters = .ok progress') :
    ∃ flags, progress.Adds progress' flags ∧ name ∉ flags := by
  induction letters generalizing progress with
  | nil =>
    obtain rfl := Except.ok.inj h
    exact ⟨[], ⟨(List.append_nil _).symm, rfl⟩, List.not_mem_nil⟩
  | cons letter rest ih =>
    rw [Progress.short] at h
    split at h
    · cases h
    · next argument hfound =>
      have hbeq := List.find?_some hfound
      have hshort : argument.short = some letter := eq_of_beq hbeq
      have hid : name ≠ argument.id := by
        intro hid
        obtain ⟨-, hnone, -⟩ := hflag.only argument (List.mem_of_find?_eq_some hfound) hid.symm
        cases hshort.symm.trans hnone
      split at h
      · obtain ⟨flags, hadds, hflags⟩ := adds_of_enter h
        exact ⟨flags, hadds, fun hmem => hid ((hflags name).1 hmem).2.2⟩
      · obtain ⟨next, hnext, hrest⟩ := bind_eq_ok_iff.1 h
        obtain ⟨flags, hadds, hflags⟩ := adds_of_enter hnext
        obtain ⟨others, hothers, hfree⟩ := ih hrest
        refine ⟨flags ++ others, ⟨?_, hothers.escaped_eq.trans hadds.escaped_eq⟩, fun hmem => ?_⟩
        · rw [hothers.flags_eq, hadds.flags_eq, List.append_assoc]
        · rcases List.mem_append.1 hmem with hmem | hmem
          · exact hid ((hflags name).1 hmem).2.2
          · exact hfree hmem

omit hflag in
theorem adds_of_positional {text : Text} (h : progress.positional command text = .ok progress') :
    progress.Adds progress' [] := by
  rw [Progress.positional] at h
  split at h
  · exact adds_of_enterValue h
  · cases h

omit hflag in
theorem adds_of_plain {text : Text} (h : progress.plain command text = .ok progress') :
    progress.Adds progress' [] := by
  rw [Progress.plain] at h
  split at h
  · obtain rfl := Except.ok.inj h
    exact ⟨(List.append_nil _).symm, rfl⟩
  · exact adds_of_positional h

/-- The flag is raised by its own word, as long as words can be options. -/
theorem mem_flags_of_step {text : Text} (h : progress.step command text = .ok progress') :
    (name ∈ progress'.given.flags ↔ name ∈ progress.given.flags ∨
      progress.escaped = false ∧ Word.ofText text = .long name none) ∧
    (progress'.escaped = false ↔ progress.escaped = false ∧ text ≠ ['-', '-']) := by
  rw [Progress.step] at h
  split at h
  · next hescaped =>
    have hadds := adds_of_positional h
    rw [hadds.mem_flags, hadds.escaped_eq, hescaped]
    simp
  · next hescaped =>
    rw [ne_eq, ← Word.ofText_eq_escape_iff]
    cases hword : Word.ofText text with
    | escape =>
      rw [hword] at h
      obtain rfl := Except.ok.inj h
      simp
    | long long value =>
      rw [hword] at h
      obtain ⟨flags, hadds, hflags⟩ := adds_of_long hflag h
      rw [hadds.mem_flags, hadds.escaped_eq, hflags]
      simp [hescaped]
    | short letters =>
      rw [hword] at h
      obtain ⟨flags, hadds, hflags⟩ := adds_of_short hflag h
      rw [hadds.mem_flags, hadds.escaped_eq]
      simp [hflags]
    | plain text =>
      rw [hword] at h
      have hadds := adds_of_plain h
      rw [hadds.mem_flags, hadds.escaped_eq]
      simp

theorem mem_flags_of_foldlM {words : List Text} {last : Progress}
    (h : words.foldlM (Progress.step command) progress = .ok last) :
    name ∈ last.given.flags ↔
      name ∈ progress.given.flags ∨ progress.escaped = false ∧ Raises words name := by
  induction words generalizing progress with
  | nil =>
    obtain rfl := Except.ok.inj h
    simp [raises_nil]
  | cons word words ih =>
    rw [List.foldlM_cons, bind_eq_ok_iff] at h
    obtain ⟨next, hnext, hrest⟩ := h
    obtain ⟨hflags, hescaped⟩ := mem_flags_of_step hflag hnext
    -- the word for the flag does not escape, so both cases are about a word that does not
    have hword : Word.ofText word = .long name none → word ≠ ['-', '-'] := by
      intro hlong hescape
      rw [Word.ofText_eq_escape_iff.2 hescape] at hlong
      cases hlong
    rw [ih hrest, hflags, hescaped, raises_cons, or_assoc]
    grind

end HasFlag

end Progress

theorem Word.ofText_flag {name : Text} (hne : name ≠ []) (hfree : '=' ∉ name) :
    Word.ofText ("--".toList ++ name) = .long name none :=
  Word.ofText_eq_long_iff.2 ⟨hne, hfree, rfl⟩

/-- The word for a flag raises it, if nothing has raised it before. -/
theorem Command.step_raise {command : Command} {name : Text} {argument : Argument}
    (hfound : command.ofLong? name = some argument) (haction : argument.action = .raiseFlag)
    (hne : name ≠ []) (hfree : '=' ∉ name) {given : Given} (hnew : given.has argument.id = false) :
    Progress.step command ⟨given, none, false⟩ ("--".toList ++ name) =
      .ok ⟨{ given with flags := given.flags ++ [argument.id] }, none, false⟩ := by
  rw [Progress.step, Word.ofText_flag hne hfree]
  change Progress.long command ⟨given, none, false⟩ name none = _
  rw [Progress.long, hfound]
  change Progress.enter ⟨given, none, false⟩ argument none = _
  unfold Progress.enter
  simp only [haction]
  change (do return Progress.continueWith _ (← given.addFlag argument.id)) = _
  rw [Given.addFlag_of_new hnew]
  rfl

theorem Command.HasFlag.step {command : Command} {name : Text} (hflag : command.HasFlag name)
    (hne : name ≠ []) (hfree : '=' ∉ name) {given : Given} (hnew : given.has name = false) :
    Progress.step command ⟨given, none, false⟩ ("--".toList ++ name) =
      .ok ⟨{ given with flags := given.flags ++ [name] }, none, false⟩ := by
  obtain ⟨argument, hfound, rfl, haction⟩ := hflag.found
  exact command.step_raise hfound haction hne hfree hnew

/-- What raises a flag is decided by the words alone. -/
theorem Command.mem_flags_of_readWords {command : Command} {words : List Text} {given : Given}
    {name : Text} (hflag : command.HasFlag name) (h : command.readWords words = .ok given) :
    name ∈ given.flags ↔ Raises words name := by
  obtain ⟨progress, hprogress, hsettled⟩ := bind_eq_ok_iff.1 h
  rw [Progress.flags_of_settle hsettled, Progress.mem_flags_of_foldlM hflag hprogress]
  simp [Progress.start, Given.nothing]

end IrConvert.CommandLine
