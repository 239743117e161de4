import IrConvert.Proofs.Except
import IrConvert.Storage.Directory
import Mathlib.Data.List.Basic

namespace IrConvert.Storage

/-- Files of a store, also those that are not there yet. -/
class LawfulStore (σ : Type) [Store σ] where
  File : Type
  /-- The file that a path leads to. -/
  file? : σ → Text → Option File
  content? : σ → File → Option ByteArray
  read_iff : ∀ {store : σ} {path : Text} {bytes : ByteArray},
    Store.read store path = .ok bytes ↔
      ∃ file, file? store path = some file ∧ content? store file = some bytes
  write_ok : ∀ {store store' : σ} {path : Text} {bytes : ByteArray},
    Store.write store path bytes = .ok store' →
      ∃ file, file? store path = some file ∧ file? store' path = some file ∧
        content? store' file = some bytes ∧
        ∀ other, other ≠ file → content? store' other = content? store other

/-- The file that a path leads to has these bytes now, and no other file has changed. -/
def Replaced {σ : Type} [Store σ] [LawfulStore σ] (before after : σ) (path : Text)
    (bytes : ByteArray) : Prop :=
  ∃ file, LawfulStore.file? before path = some file ∧
    LawfulStore.content? after file = some bytes ∧ Store.read after path = .ok bytes ∧
    ∀ other, other ≠ file → LawfulStore.content? after other = LawfulStore.content? before other

theorem replaced_of_write {σ : Type} [Store σ] [LawfulStore σ] {store store' : σ} {path : Text}
    {bytes : ByteArray} (h : Store.write store path bytes = .ok store') :
    Replaced store store' path bytes := by
  obtain ⟨file, hbefore, hafter, hcontent, hother⟩ := LawfulStore.write_ok h
  exact ⟨file, hbefore, hcontent, LawfulStore.read_iff.2 ⟨file, hafter, hcontent⟩, hother⟩

namespace Directory

variable {directory directory' : Directory}

theorem lookup_filter_ne {α β : Type} [BEq α] [LawfulBEq α] {key other : α} (hne : other ≠ key)
    (entries : List (α × β)) :
    (entries.filter (·.1 != key)).lookup other = entries.lookup other := by
  induction entries with
  | nil => rfl
  | cons entry entries ih =>
    obtain ⟨name, value⟩ := entry
    by_cases hkey : name = key
    · have hother : (other == name) = false := beq_eq_false_iff_ne.2 (hkey ▸ hne)
      rw [List.filter_cons_of_neg (by simp [hkey]), ih, List.lookup_cons, hother]
    · rw [List.filter_cons_of_pos (by simp [hkey]), List.lookup_cons, List.lookup_cons, ih]

theorem node?_put_self {names : List Text} (node : Node)
    (h : directory.node? names ≠ some .directory) :
    (directory.put names node).node? names = some node := by
  have habove : isAbove names = false := by
    cases ha : isAbove names with
    | false => rfl
    | true => exact absurd (if_pos ha) h
  rw [node?, habove, put]
  exact List.lookup_cons_self

theorem node?_put_other {names other : List Text} (node : Node) (hne : other ≠ names) :
    (directory.put names node).node? other = directory.node? other := by
  have hkey : (other == names) = false := beq_eq_false_iff_ne.2 hne
  rw [node?, node?, put]
  dsimp only
  rw [List.lookup_cons, hkey, lookup_filter_ne hne]

theorem enter_eq_ok_iff {names result : List Text} {name : Text} :
    directory.enter names name = .ok result ↔ directory.node? names = some .directory ∧
      Path.nameTooLong name = false ∧ moved names name = result := by
  unfold enter
  cases directory.node? names with
  | none => simp
  | some node => cases node <;> cases Path.nameTooLong name <;> simp

theorem walk_cons_eq_ok_iff {start result names : List Text} {name : Text} :
    directory.walk start (name :: names) = .ok result ↔
      ∃ next, directory.enter start name = .ok next ∧ directory.walk next names = .ok result := by
  rw [walk, List.foldlM_cons, bind_eq_ok_iff]
  rfl

theorem walk_concat_eq_ok_iff {start result names : List Text} {name : Text} :
    directory.walk start (names ++ [name]) = .ok result ↔
      ∃ above, directory.walk start names = .ok above ∧
        directory.enter above name = .ok result := by
  rw [walk, List.foldlM_append, bind_eq_ok_iff]
  simp only [List.foldlM_cons, List.foldlM_nil, bind_pure]
  rfl

/-- Every place on the way is a directory, so a walk does not see what is put elsewhere. -/
theorem walk_put {place : List Text} (node : Node) (h : directory.node? place ≠ some .directory)
    {names start result : List Text} (hwalk : directory.walk start names = .ok result) :
    (directory.put place node).walk start names = .ok result := by
  induction names generalizing start with
  | nil => exact hwalk
  | cons name names ih =>
    obtain ⟨next, henter, hrest⟩ := walk_cons_eq_ok_iff.1 hwalk
    obtain ⟨hnode, hlong, hmoved⟩ := enter_eq_ok_iff.1 henter
    -- the walk goes through directories only, and the place is none
    have hne : start ≠ place := by
      intro he
      rw [he] at hnode
      exact h hnode
    have hnode' : (directory.put place node).node? start = some .directory := by
      rw [node?_put_other node hne, hnode]
    exact walk_cons_eq_ok_iff.2 ⟨next, enter_eq_ok_iff.2 ⟨hnode', hlong, hmoved⟩, ih hrest⟩

def place (directory : Directory) (path : Text) : Except Fault (List Text) := do
  directory.walk (Path.start path) (← Path.names path)

theorem place_eq_ok_iff {path : Text} {result : List Text} :
    directory.place path = .ok result ↔
      ∃ names, Path.names path = .ok names ∧ directory.walk (Path.start path) names = .ok result :=
  bind_eq_ok_iff

theorem place_put {path : Text} {names : List Text} (node : Node)
    (h : directory.node? names ≠ some .directory) (hplace : directory.place path = .ok names) :
    (directory.put names node).place path = .ok names := by
  obtain ⟨parts, hparts, hwalk⟩ := place_eq_ok_iff.1 hplace
  exact place_eq_ok_iff.2 ⟨parts, hparts, walk_put node h hwalk⟩

theorem exists_last_of_names {path : Text} {names : List Text} (h : Path.names path = .ok names) :
    ∃ front last, names = front ++ [last] := by
  rw [Path.names] at h
  split at h
  · cases h
  · obtain rfl := Except.ok.inj h
    rcases List.eq_nil_or_concat (Text.cutAt '/' path) with hnil | hconcat
    · exact absurd hnil (Text.cutAt_ne_nil '/' path)
    · simpa using hconcat

theorem withoutSlashes_concat {front : List Text} {last : Text} (h : last ≠ []) :
    Path.withoutSlashes (front ++ [last]) = front ++ [last] := by
  rw [Path.withoutSlashes, List.reverse_append, List.reverse_singleton, List.singleton_append,
    List.dropWhile_cons_of_neg (by simpa using h)]
  simp

/-- The place of a file that is to be written is the one at which it will be read. -/
theorem place_of_target {path : Text} {result : List Text}
    (h : directory.target path = .ok result) : directory.place path = .ok result := by
  obtain ⟨names, hnames, h⟩ := bind_eq_ok_iff.1 h
  obtain ⟨above, habove, h⟩ := bind_eq_ok_iff.1 h
  obtain ⟨within, hwithin, h⟩ := bind_eq_ok_iff.1 h
  obtain ⟨front, last, rfl⟩ := exists_last_of_names hnames
  split at h
  · cases h
  · next hdirectory =>
    have hlast : last ≠ [] := by
      intro hnil
      apply hdirectory
      rw [Path.namesADirectory, List.getLast?_concat, hnil]
      rfl
    have henter : directory.enter within last = .ok result := by
      simpa using h
    -- the look at the directory before the last name moves nowhere
    have hsame : above = within := (enter_eq_ok_iff.1 hwithin).2.2
    rw [withoutSlashes_concat hlast, List.dropLast_concat] at habove
    exact place_eq_ok_iff.2 ⟨_, hnames, walk_concat_eq_ok_iff.2 ⟨above, habove, hsame ▸ henter⟩⟩

theorem write_eq_ok_iff {path : Text} {bytes : ByteArray} :
    directory.write path bytes = .ok directory' ↔
      ∃ names, directory.target path = .ok names ∧ directory.node? names ≠ some .directory ∧
        directory' = directory.put names (.file bytes) := by
  rw [write, bind_eq_ok_iff]
  constructor
  · intro h
    obtain ⟨names, htarget, h⟩ := h
    split at h
    · cases h
    · next hnode => exact ⟨names, htarget, hnode, (Except.ok.inj h).symm⟩
  · intro h
    obtain ⟨names, htarget, hnode, rfl⟩ := h
    refine ⟨names, htarget, ?_⟩
    split
    · next hdirectory => exact absurd hdirectory hnode
    · rfl

def content? (directory : Directory) (names : List Text) : Option ByteArray :=
  match directory.node? names with
  | some (.file content) => some content
  | _ => none

theorem content?_eq_some_iff {names : List Text} {bytes : ByteArray} :
    directory.content? names = some bytes ↔ directory.node? names = some (.file bytes) := by
  unfold content?
  cases directory.node? names with
  | none => simp
  | some node => cases node <;> simp

theorem toOption_place_eq_some_iff {path : Text} {names : List Text} :
    (directory.place path).toOption = some names ↔ directory.place path = .ok names := by
  cases directory.place path <;> simp [Except.toOption]

theorem read_eq_ok_iff {path : Text} {bytes : ByteArray} :
    directory.read path = .ok bytes ↔
      ∃ names, (directory.place path).toOption = some names ∧
        directory.content? names = some bytes := by
  constructor
  · intro h
    obtain ⟨parts, hparts, h⟩ := bind_eq_ok_iff.1 h
    obtain ⟨names, hwalk, h⟩ := bind_eq_ok_iff.1 h
    have hplace : directory.place path = .ok names := place_eq_ok_iff.2 ⟨parts, hparts, hwalk⟩
    refine ⟨names, toOption_place_eq_some_iff.2 hplace, ?_⟩
    split at h
    · cases h
    · cases h
    · next content hnode =>
      obtain rfl := Except.ok.inj h
      exact content?_eq_some_iff.2 hnode
  · intro h
    obtain ⟨names, hplace, hcontent⟩ := h
    obtain ⟨parts, hparts, hwalk⟩ := place_eq_ok_iff.1 (toOption_place_eq_some_iff.1 hplace)
    refine bind_eq_ok_iff.2 ⟨parts, hparts, bind_eq_ok_iff.2 ⟨names, hwalk, ?_⟩⟩
    rw [content?_eq_some_iff.1 hcontent]

instance : LawfulStore Directory where
  File := List Text
  file? directory path := (directory.place path).toOption
  content? := content?
  read_iff := read_eq_ok_iff
  write_ok {directory directory' path bytes} h := by
    obtain ⟨names, htarget, hnode, rfl⟩ := write_eq_ok_iff.1 h
    have hplace := place_of_target htarget
    refine ⟨names, ?_, ?_, ?_, fun other hne => ?_⟩
    · exact toOption_place_eq_some_iff.2 hplace
    · exact toOption_place_eq_some_iff.2 (place_put _ hnode hplace)
    · exact content?_eq_some_iff.2 (node?_put_self _ hnode)
    · rw [content?, node?_put_other _ hne, content?]

end Directory

end IrConvert.Storage
