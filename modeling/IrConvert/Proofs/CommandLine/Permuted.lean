import IrConvert.Proofs.CommandLine.Selectable
import Mathlib.Data.List.Find
import Mathlib.Data.List.Perm.Basic

namespace IrConvert

open CommandLine

namespace CommandLine

variable {command : Command} {given given' : Given}

theorem Word.attached?_append {name : Text} (hfree : '=' ∉ name) (value : Text) :
    attached? (name ++ '=' :: value) = some value := by
  rw [attached?, List.dropWhile_append_of_pos (ne_equals_of_not_mem hfree)]
  rfl

theorem Word.ofText_assigned {name : Text} (hne : name ≠ []) (hfree : '=' ∉ name) (value : Text) :
    ofText ("--".toList ++ (name ++ '=' :: value)) = .long name (some value) := by
  have htake : (name ++ '=' :: value).takeWhile (· != '=') = name := by
    rw [List.takeWhile_append_of_pos (ne_equals_of_not_mem hfree)]
    exact List.append_nil name
  obtain ⟨c, rest, rfl⟩ := List.exists_cons_of_ne_nil hne
  change long ((c :: rest ++ '=' :: value).takeWhile (· != '=')) _ = _
  rw [htake]
  exact congrArg _ (attached?_append hfree value)

theorem Word.ofText_plain {text : Text} (h : text = ['-'] ∨ text.head? ≠ some '-') :
    ofText text = .plain text := by
  rcases h with rfl | hhead
  · rfl
  · unfold ofText
    split
    · exact absurd rfl hhead
    · exact absurd rfl hhead
    · rfl
    · exact absurd rfl hhead
    · rfl

theorem Command.step_assign {name value : Text} {argument : Argument}
    (hfound : command.ofLong? name = some argument) (haction : argument.action = .storeValue)
    (hne : name ≠ []) (hfree : '=' ∉ name) (hnew : given.has argument.id = false) :
    Progress.step command ⟨given, none, false⟩ ("--".toList ++ (name ++ '=' :: value)) =
      .ok ⟨{ given with values := given.values ++ [(argument.id, value)] }, none, false⟩ := by
  rw [Progress.step, Word.ofText_assigned hne hfree]
  change Progress.long command ⟨given, none, false⟩ name (some value) = _
  rw [Progress.long, hfound]
  change Progress.enter ⟨given, none, false⟩ argument (some value) = _
  unfold Progress.enter
  simp only [haction]
  change (do return Progress.continueWith _ (← given.addValue argument.id value)) = _
  rw [Given.addValue_of_new hnew]
  rfl

theorem Command.step_plain {text : Text} {argument : Argument} {others : List Argument}
    (hfirst : command.positionals = argument :: others)
    (htext : text = ['-'] ∨ text.head? ≠ some '-') (hnew : given.has argument.id = false) :
    Progress.step command ⟨given, none, false⟩ text =
      .ok ⟨{ given with values := given.values ++ [(argument.id, text)] }, none, false⟩ := by
  have hfind : (command.positionals.find? fun argument => !given.has argument.id) =
      some argument := by
    rw [hfirst, List.find?_cons, hnew]
    rfl
  rw [Progress.step, Word.ofText_plain htext]
  change Progress.positional command ⟨given, none, false⟩ text = _
  unfold Progress.positional
  dsimp only
  rw [hfind]
  change (do return Progress.continueWith _ (← given.addValue argument.id text)) = _
  rw [Given.addValue_of_new hnew]
  rfl

/-- The same flags and values in another order, with no value given twice. -/
structure Given.Reordered (given given' : Given) : Prop where
  flags : given'.flags.Perm given.flags
  values : given'.values.Perm given.values
  once : (given.values.map (·.1)).Nodup

namespace Given.Reordered

theorem contains_flags (h : Reordered given given') :
    given'.flags.contains = given.flags.contains := by
  funext id
  rw [Bool.eq_iff_iff, List.contains_iff_mem, List.contains_iff_mem]
  exact h.flags.mem_iff

theorem has_eq (h : Reordered given given') : given'.has = given.has := by
  funext id
  unfold has
  rw [h.contains_flags, h.values.any_eq]

theorem value?_eq (h : Reordered given given') (id : Text) :
    given'.value? id = given.value? id := by
  have hlookup (values : List (Text × Text)) :
      values.lookup id = (values.find? (id == ·.1)).map (·.2) := by
    induction values with
    | nil => rfl
    | cons entry others ih =>
      rw [List.lookup_cons, List.find?_cons]
      cases id == entry.1 with
      | true => rfl
      | false => exact ih
  have hfind := List.find?_eq_find?_of_perm h.values.symm (p := (id == ·.1)) ?_
  · unfold value?
    rw [hlookup, hlookup, hfind]
  · -- a value that is not given twice is the only one of its argument
    rintro entry ⟨hmem, hid⟩ entry' ⟨hmem', hid'⟩
    apply List.inj_on_of_nodup_map h.once hmem hmem'
    rw [← eq_of_beq hid, ← eq_of_beq hid']

theorem groupError?_eq (h : Reordered given given') (command : Command) :
    command.groupError? given' = command.groupError? given := by
  unfold Command.groupError? Group.exclusiveError? Group.requiredError? Group.present
  rw [h.has_eq]

end Given.Reordered

end CommandLine

theorem Registry.options_of_reordered {registry : Registry} {given given' : Given}
    (h : given.Reordered given') : registry.options given' = registry.options given := by
  unfold options
  rw [h.contains_flags, h.value?_eq, h.value?_eq]

/-- What one word of a request says. -/
inductive Piece where
  | converter (name : Text)
  | output (text : Text)
  | input (text : Text)
  | splitInput
  | debug

namespace Piece

def word : Piece → Text
  | converter name => "--" ++ name
  | output text => "--output=" ++ text
  | input text => text
  | splitInput => "--split-input-file"
  | debug => "--debug"

def id : Piece → Text
  | converter name => name
  | output _ => Options.outputArgument.id
  | input _ => Options.inputArgument.id
  | splitInput => Options.splitArgument.id
  | debug => Options.debugArgument.id

def flag? : Piece → Option Text
  | output _ => none
  | input _ => none
  | piece => some piece.id

def value? : Piece → Option (Text × Text)
  | output text => some (Options.outputArgument.id, text)
  | input text => some (Options.inputArgument.id, text)
  | _ => none

def Fits (registry : Registry) : Piece → Prop
  | converter name => name ∈ registry.names ∧ '=' ∉ name
  | input text => text = ['-'] ∨ text.head? ≠ some '-'
  | _ => True

end Piece

namespace CommandLine.Given

def adding (given : Given) (pieces : List Piece) : Given :=
  ⟨given.flags ++ pieces.filterMap Piece.flag?, given.values ++ pieces.filterMap Piece.value?⟩

theorem adding_flag {piece : Piece} {id : Text} (hflag : piece.flag? = some id)
    (hvalue : piece.value? = none) (given : Given) :
    given.adding [piece] = { given with flags := given.flags ++ [id] } := by
  unfold adding
  simp [hflag, hvalue]

theorem adding_value {piece : Piece} {entry : Text × Text} (hflag : piece.flag? = none)
    (hvalue : piece.value? = some entry) (given : Given) :
    given.adding [piece] = { given with values := given.values ++ [entry] } := by
  unfold adding
  simp [hflag, hvalue]

theorem has_adding_one (given : Given) (piece : Piece) (id : Text) :
    (given.adding [piece]).has id = (given.has id || piece.id == id) := by
  rw [Bool.eq_iff_iff]
  cases piece <;> simp [has, adding, Piece.flag?, Piece.value?, Piece.id] <;> grind

theorem adding_cons (given : Given) (piece : Piece) (pieces : List Piece) :
    (given.adding [piece]).adding pieces = given.adding (piece :: pieces) := by
  unfold adding
  rw [List.append_assoc, List.append_assoc, ← List.filterMap_append, ← List.filterMap_append]
  rfl

end CommandLine.Given

namespace Registry

variable {registry : Registry} {about : Text} {given : Given}

theorem positionals_command :
    (registry.command about).positionals = [Options.inputArgument] := by
  have hnone : registry.arguments.filter (·.isPositional) = [] := by
    rw [List.filter_eq_nil_iff]
    intro argument hmem
    obtain ⟨converter, -, rfl⟩ := List.mem_map.1 hmem
    exact Bool.false_ne_true
  change (registry.arguments ++ Options.arguments).filter (·.isPositional) = _
  rw [List.filter_append, hnone]
  rfl

/-- One case for each kind of word. -/
theorem step_piece {piece : Piece} (hfits : piece.Fits registry)
    (hnew : given.has piece.id = false) :
    Progress.step (registry.command about) ⟨given, none, false⟩ piece.word =
      .ok ⟨given.adding [piece], none, false⟩ := by
  cases piece with
  | converter name =>
    obtain ⟨hmem, hfree⟩ := hfits
    obtain ⟨hne, -, -⟩ := nameRefusal?_eq_none_iff.1 (nameRefusal?_of_mem_names hmem)
    rw [Given.adding_flag rfl rfl]
    exact (hasFlag_of_mem_names hmem).step hne hfree hnew
  | output text =>
    rw [Given.adding_value rfl rfl]
    exact Command.step_assign ofLong?_output rfl (by decide) (by decide) hnew
  | input text =>
    rw [Given.adding_value rfl rfl]
    exact Command.step_plain positionals_command hfits hnew
  | splitInput =>
    rw [Given.adding_flag rfl rfl]
    exact Command.step_raise ofLong?_split rfl (by decide) (by decide) hnew
  | debug =>
    rw [Given.adding_flag rfl rfl]
    exact Command.step_raise ofLong?_debug rfl (by decide) (by decide) hnew

theorem foldlM_pieces {pieces : List Piece} (hfits : ∀ piece ∈ pieces, piece.Fits registry)
    (hdistinct : (pieces.map Piece.id).Nodup)
    (hnew : ∀ piece ∈ pieces, given.has piece.id = false) :
    (pieces.map Piece.word).foldlM (Progress.step (registry.command about))
      ⟨given, none, false⟩ = .ok ⟨given.adding pieces, none, false⟩ := by
  induction pieces generalizing given with
  | nil =>
    unfold Given.adding
    rw [List.filterMap_nil, List.filterMap_nil, List.append_nil, List.append_nil]
    rfl
  | cons piece pieces ih =>
    obtain ⟨hpiece, hpieces⟩ := List.forall_mem_cons.1 hfits
    obtain ⟨hfirst, hlater⟩ := List.forall_mem_cons.1 hnew
    obtain ⟨hother, hdistinct⟩ := List.nodup_cons.1 hdistinct
    have hnext : ∀ later ∈ pieces, (given.adding [piece]).has later.id = false := by
      intro later hmem
      -- what the first word says is not said again
      have hne : piece.id ≠ later.id := by
        intro heq
        rw [heq] at hother
        exact hother (List.mem_map_of_mem hmem)
      rw [Given.has_adding_one, hlater later hmem, Bool.false_or, beq_eq_false_iff_ne.2 hne]
    rw [List.map_cons, List.foldlM_cons, step_piece hpiece hfirst, ← given.adding_cons piece pieces]
    exact ih hpieces hdistinct hnext

/-- Words that say different things are all read. -/
theorem readWords_pieces {pieces : List Piece} (hfits : ∀ piece ∈ pieces, piece.Fits registry)
    (hdistinct : (pieces.map Piece.id).Nodup) :
    (registry.command about).readWords (pieces.map Piece.word) =
      .ok (Given.nothing.adding pieces) := by
  have hread : (pieces.map Piece.word).foldlM (Progress.step (registry.command about)) .start =
      .ok ⟨Given.nothing.adding pieces, none, false⟩ :=
    foldlM_pieces hfits hdistinct fun _ _ => rfl
  rw [Command.readWords, hread]
  rfl

end Registry

/-- What the words of a command line ask for. -/
structure Request where
  converters : List Text
  output : Option Text
  input : Option Text
  splitInput : Bool
  debug : Bool

namespace Request

def others (request : Request) : List Piece :=
  (request.output.map Piece.output).toList ++ (request.input.map Piece.input).toList ++
    (if request.splitInput then [.splitInput] else []) ++
    if request.debug then [.debug] else []

def pieces (request : Request) : List Piece :=
  request.converters.map .converter ++ request.others

def words (request : Request) : List Text := request.pieces.map Piece.word

/-- Each converter is asked for once by a flag of the registry, and the input is not read as
options. -/
structure Fits (request : Request) (registry : Registry) : Prop where
  registered : ∀ name ∈ request.converters, name ∈ registry.names ∧ '=' ∉ name
  distinct : request.converters.Nodup
  input : ∀ text ∈ request.input, text = ['-'] ∨ text.head? ≠ some '-'

/-- What stands for the words that are left out is standard input or output. -/
def optionsFor (request : Request) (name : Text) : Options :=
  { converter := name
    input := request.input.getD ['-']
    output := request.output.getD ['-']
    splitInput := request.splitInput
    debug := request.debug }

variable {request : Request} {registry : Registry} {about : Text}

theorem Fits.pieces (hfits : request.Fits registry) :
    ∀ piece ∈ request.pieces, piece.Fits registry := by
  intro piece hmem
  rcases List.mem_append.1 hmem with hconverter | hother
  · obtain ⟨name, hname, rfl⟩ := List.mem_map.1 hconverter
    exact hfits.registered name hname
  · cases piece with
    | converter name => simp [others] at hother
    | input text =>
      have hinput : request.input = some text := by simpa [others] using hother
      exact hfits.input text hinput
    | _ => trivial

def otherIds (output input splitInput debug : Bool) : List Text :=
  (if output then [Options.outputArgument.id] else []) ++
    (if input then [Options.inputArgument.id] else []) ++
    (if splitInput then [Options.splitArgument.id] else []) ++
    if debug then [Options.debugArgument.id] else []

theorem nodup_otherIds : ∀ output input splitInput debug,
    (otherIds output input splitInput debug).Nodup := by decide

theorem reserved_of_mem_otherIds : ∀ output input splitInput debug,
    ∀ id ∈ otherIds output input splitInput debug, id ∈ Registry.reservedNames := by decide

theorem map_id_others (request : Request) :
    request.others.map Piece.id = otherIds request.output.isSome request.input.isSome
      request.splitInput request.debug := by
  obtain ⟨converters, output, input, splitInput, debug⟩ := request
  cases output <;> cases input <;> cases splitInput <;> cases debug <;> rfl

theorem map_id_pieces (request : Request) :
    request.pieces.map Piece.id = request.converters ++ request.others.map Piece.id := by
  have hconverters : (request.converters.map Piece.converter).map Piece.id = request.converters :=
    (List.map_map ..).trans (List.map_id _)
  rw [pieces, List.map_append, hconverters]

theorem Fits.nodup_ids (hfits : request.Fits registry) : (request.pieces.map Piece.id).Nodup := by
  rw [map_id_pieces, map_id_others, List.nodup_append]
  refine ⟨hfits.distinct, nodup_otherIds _ _ _ _, ?_⟩
  intro name hname id hid
  obtain ⟨hregistered, -⟩ := hfits.registered name hname
  exact Registry.ne_of_mem_names hregistered (reserved_of_mem_otherIds _ _ _ _ id hid)

def given (request : Request) : Given := Given.nothing.adding request.pieces

theorem flags_given (request : Request) :
    request.given.flags = request.converters ++
      ((if request.splitInput then [Options.splitArgument.id] else []) ++
        if request.debug then [Options.debugArgument.id] else []) := by
  have hconverters : (request.converters.map Piece.converter).filterMap Piece.flag? =
      request.converters := by
    rw [List.filterMap_map]
    exact List.filterMap_some
  change [] ++ request.pieces.filterMap Piece.flag? = _
  rw [List.nil_append, pieces, List.filterMap_append, hconverters]
  obtain ⟨converters, output, input, splitInput, debug⟩ := request
  cases output <;> cases input <;> cases splitInput <;> cases debug <;> rfl

theorem values_given (request : Request) :
    request.given.values =
      (request.output.map fun text => (Options.outputArgument.id, text)).toList ++
        (request.input.map fun text => (Options.inputArgument.id, text)).toList := by
  have hconverters : (request.converters.map Piece.converter).filterMap Piece.value? = [] := by
    rw [List.filterMap_map, List.filterMap_eq_nil_iff]
    intro name _
    rfl
  change [] ++ request.pieces.filterMap Piece.value? = _
  rw [List.nil_append, pieces, List.filterMap_append, hconverters]
  obtain ⟨converters, output, input, splitInput, debug⟩ := request
  cases output <;> cases input <;> cases splitInput <;> cases debug <;> rfl

theorem reordered_given {pieces : List Piece} (h : pieces.Perm request.pieces) :
    request.given.Reordered (Given.nothing.adding pieces) where
  flags := h.filterMap _
  values := h.filterMap _
  once := by
    have hne : Options.outputArgument.id ≠ Options.inputArgument.id := by decide
    rw [values_given]
    cases request.output <;> cases request.input <;> simp [hne]

theorem input_given (request : Request) :
    request.given.value? Options.inputArgument.id = request.input := by
  rw [Given.value?, values_given]
  cases request.output <;> cases request.input <;> rfl

theorem output_given (request : Request) :
    request.given.value? Options.outputArgument.id = request.output := by
  rw [Given.value?, values_given]
  cases request.output <;> cases request.input <;> rfl

theorem contains_flags_given (request : Request) (id : Text) :
    request.given.flags.contains id = (request.converters.contains id ||
      (request.splitInput && id == Options.splitArgument.id ||
        request.debug && id == Options.debugArgument.id)) := by
  have hone (asked : Bool) (other : Text) :
      (if asked then [other] else []).contains id = (asked && id == other) := by
    cases asked with
    | false => rfl
    | true =>
      change ([other].contains id) = (id == other)
      rw [List.contains_cons, List.contains_nil, Bool.or_false]
  rw [flags_given, List.contains_append, List.contains_append, hone, hone]

theorem Fits.not_mem_of_reserved (hfits : request.Fits registry) {id : Text}
    (hid : id ∈ Registry.reservedNames) : request.converters.contains id = false := by
  rw [Bool.eq_false_iff, Ne, List.contains_iff_mem]
  intro hmem
  exact Registry.not_mem_names_of_reserved hid (hfits.registered id hmem).1

theorem Fits.splitInput_given (hfits : request.Fits registry) :
    request.given.flags.contains Options.splitArgument.id = request.splitInput := by
  rw [contains_flags_given, hfits.not_mem_of_reserved (by decide)]
  have hne : (Options.splitArgument.id == Options.debugArgument.id) = false := by decide
  rw [hne, beq_self_eq_true, Bool.and_true, Bool.and_false, Bool.or_false, Bool.false_or]

theorem Fits.debug_given (hfits : request.Fits registry) :
    request.given.flags.contains Options.debugArgument.id = request.debug := by
  rw [contains_flags_given, hfits.not_mem_of_reserved (by decide)]
  have hne : (Options.debugArgument.id == Options.splitArgument.id) = false := by decide
  rw [hne, beq_self_eq_true, Bool.and_true, Bool.and_false, Bool.false_or, Bool.false_or]

/-- The converters that are asked for, in the order of the registry. -/
theorem filter_flags_given (registry : Registry) (request : Request) :
    registry.names.filter request.given.flags.contains =
      registry.names.filter request.converters.contains := by
  refine List.filter_congr fun name hname => ?_
  have hne {id : Text} (hid : id ∈ Registry.reservedNames) : (name == id) = false :=
    beq_eq_false_iff_ne.2 (Registry.ne_of_mem_names hname hid)
  rw [contains_flags_given, hne (by decide), hne (by decide), Bool.and_false, Bool.and_false,
    Bool.or_false, Bool.or_false]

theorem Fits.perm_converters (hfits : request.Fits registry) :
    (registry.names.filter request.converters.contains).Perm request.converters := by
  rw [List.perm_ext_iff_of_nodup (registry.nodup_names.filter _) hfits.distinct]
  intro name
  rw [List.mem_filter, List.contains_iff_mem, and_iff_right_iff_imp]
  exact fun hmem => (hfits.registered name hmem).1

theorem Fits.present_given (hfits : request.Fits registry) :
    registry.group.present request.given =
      registry.names.filter request.converters.contains := by
  have hgiven : request.given.Fits (registry.command []) :=
    Command.fits_of_readWords (Registry.readWords_pieces hfits.pieces hfits.nodup_ids)
  rw [← filter_flags_given]
  exact List.filter_congr fun name hname => Registry.has_eq_of_mem_names hgiven hname

theorem Fits.mem_names (hfits : request.Fits registry) {name : Text}
    (hone : request.converters = [name]) : name ∈ registry.names := by
  refine (hfits.registered name ?_).1
  rw [hone]
  exact List.mem_singleton_self name

theorem Fits.options_given (hfits : request.Fits registry) {name : Text}
    (hone : request.converters = [name]) :
    registry.options request.given = .ok (request.optionsFor name) := by
  rw [Registry.options, filter_flags_given, hone, Registry.filter_singleton (hfits.mem_names hone)]
  dsimp only
  rw [hfits.splitInput_given, hfits.debug_given, input_given, output_given]
  rfl

/-- The words of a request are read in any order. -/
theorem Fits.exists_readWords (hfits : request.Fits registry) {words : List Text}
    (hwords : words.Perm request.words) :
    ∃ given, (registry.command about).readWords words = .ok given ∧
      request.given.Reordered given := by
  have hmap : List.Forall₂ (fun word piece => word = Piece.word piece) request.words
      request.pieces := by
    rw [← List.forall₂_map_right_iff, List.forall₂_eq_eq_eq]
    rfl
  obtain ⟨pieces, hpieces, hperm⟩ := List.perm_comp_forall₂ hwords hmap
  rw [← List.forall₂_map_right_iff, List.forall₂_eq_eq_eq] at hpieces
  subst hpieces
  refine ⟨_, Registry.readWords_pieces (fun piece hmem => ?_) ?_, reordered_given hperm⟩
  · exact hfits.pieces piece (hperm.mem_iff.1 hmem)
  · exact ((hperm.map Piece.id).nodup_iff).2 hfits.nodup_ids

theorem Fits.optionsOf_of_groupError (hfits : request.Fits registry)
    (hclash : "TranslateArgs".toList ∉ registry.names) {words : List Text}
    (hwords : words.Perm request.words) {error : UsageError}
    (h : (registry.command about).groupError? request.given = some error) (program : Text) :
    registry.optionsOf (registry.command about) (program :: words) = .error (.usage error) := by
  obtain ⟨given, hread, hgiven⟩ := @exists_readWords _ _ about hfits _ hwords
  rw [← hgiven.groupError?_eq] at h
  have herror : (registry.command about).read (program :: words) = .error error :=
    Command.read_of_groupError hread h
  rw [Registry.optionsOf_eq (Registry.nodup_ids_iff.2 hclash), herror]

theorem Fits.optionsOf_of_accepted (hfits : request.Fits registry)
    (hclash : "TranslateArgs".toList ∉ registry.names) {words : List Text}
    (hwords : words.Perm request.words)
    (h : (registry.command about).groupError? request.given = none) (program : Text) :
    registry.optionsOf (registry.command about) (program :: words) =
      (registry.options request.given).mapError .failure := by
  obtain ⟨given, hread, hgiven⟩ := @exists_readWords _ _ about hfits _ hwords
  rw [← hgiven.groupError?_eq] at h
  have hok : (registry.command about).read (program :: words) = .ok given :=
    Command.read_eq_ok_iff.2 ⟨hread, h⟩
  rw [Registry.optionsOf_eq (Registry.nodup_ids_iff.2 hclash), hok]
  exact congrArg (Except.mapError Stop.failure) (Registry.options_of_reordered hgiven)

end Request

/-- The words of a request for one converter give its options back, in any order. A request for
several is in conflict, and one for none misses what is required. -/
theorem Registry.optionsOf_of_perm {registry : Registry} {request : Request}
    (hfits : request.Fits registry) (hclash : "TranslateArgs".toList ∉ registry.names)
    {words : List Text} (hwords : words.Perm request.words) (about program : Text) :
    let answer := registry.optionsOf (registry.command about) (program :: words)
    (∀ name, request.converters = [name] → answer = .ok (request.optionsFor name)) ∧
    (1 < request.converters.length → answer = .error (.usage .conflict)) ∧
    (request.converters = [] → registry.names ≠ [] →
      answer = .error (.usage .missingRequired)) := by
  intro answer
  have hpresent := hfits.present_given
  refine ⟨fun name hone => ?_, fun hseveral => ?_, fun hnone hne => ?_⟩
  · have hname := hfits.mem_names hone
    have haccepted : (registry.command about).groupError? request.given = none := by
      rw [groupError?_command (isEmpty_of_mem_names hname), hpresent, hone, filter_singleton hname]
      rfl
    refine (hfits.optionsOf_of_accepted hclash hwords haccepted program).trans ?_
    rw [hfits.options_given hone]
    rfl
  · obtain ⟨name, hname⟩ := List.exists_mem_of_length_pos (Nat.zero_lt_of_lt hseveral)
    refine hfits.optionsOf_of_groupError hclash hwords ?_ program
    rw [groupError?_command (isEmpty_of_mem_names (hfits.registered name hname).1), hpresent,
      hfits.perm_converters.length_eq, if_pos hseveral]
  · obtain ⟨name, hname⟩ := List.exists_mem_of_ne_nil _ hne
    have hfilter : registry.names.filter ([] : List Text).contains = [] :=
      List.filter_eq_nil_iff.2 fun _ _ => Bool.false_ne_true
    refine hfits.optionsOf_of_groupError hclash hwords ?_ program
    rw [groupError?_command (isEmpty_of_mem_names hname), hpresent, hnone, hfilter]
    rfl

/-- The value of the output begins with an equals sign and the input is empty. -/
theorem Registry.optionsOf_of_perm_of_equations :
    let request : Request := ⟨["c".toList], some "=x".toList, some [], true, false⟩
    let words := [[], "--split-input-file".toList, "--output==x".toList, "--c".toList]
    request.Fits passingEquation ∧ "TranslateArgs".toList ∉ passingEquation.names ∧
      words.Perm request.words ∧
      passingEquation.optionsOf (passingEquation.command []) ("p".toList :: words) =
        .ok (request.optionsFor "c".toList) := by
  intro request words
  have hfits : request.Fits passingEquation := ⟨by decide, by decide, by decide⟩
  have hclash : "TranslateArgs".toList ∉ passingEquation.names := by decide
  have hwords : words.Perm request.words := by decide
  obtain ⟨hone, -, -⟩ := optionsOf_of_perm hfits hclash hwords [] "p".toList
  exact ⟨hfits, hclash, hwords, hone _ rfl⟩

end IrConvert
