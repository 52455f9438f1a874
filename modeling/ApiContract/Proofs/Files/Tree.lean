import ApiContract.Files.Tree
import ApiContract.Proofs.Outcome
import Mathlib.Data.List.Nodup
/-!
# Trees whose entries are in any order

A tree has one entry for a path (`FileTree.WellFormed`).  What a path leads to
then does not depend on the order of the entries (`find_of_reordered`), and
neither does what a directory lists, up to the order of its names
(`list_of_reordered`); no name is listed twice (`nodup_of_list`).

Whether a file can be written does not depend on its content (`write_eq`).
-/

namespace ApiContract

/-! ## Lists of entries -/

section Lookup

variable {α β : Type} {entries others : List (α × β)}

theorem nodup_keys_of_perm (h : (entries.map (·.1)).Nodup) (hperm : entries.Perm others) :
    (others.map (·.1)).Nodup :=
  (hperm.map _).nodup_iff.1 h

variable [BEq α] [LawfulBEq α]

/-- Where no key occurs twice, looking it up finds its entry. -/
theorem lookup_eq_some_iff_of_nodup (h : (entries.map (·.1)).Nodup) {key : α} {value : β} :
    entries.lookup key = some value ↔ (key, value) ∈ entries := by
  induction entries with
  | nil => simp
  | cons head rest ih =>
    obtain ⟨k, v⟩ := head
    obtain ⟨hnew, hrest⟩ := List.nodup_cons.1 h
    rw [List.lookup_cons, List.mem_cons]
    by_cases heq : key = k
    · subst heq
      rw [beq_self_eq_true]
      constructor
      · intro hvalue
        cases hvalue
        exact .inl rfl
      · rintro (heq | hmem)
        · cases heq
          rfl
        · exact absurd (List.mem_map_of_mem hmem) hnew
    · rw [beq_eq_false_iff_ne.2 heq]
      refine (ih hrest).trans ?_
      constructor
      · exact .inr
      · rintro (hhead | hmem)
        · exact absurd (congrArg Prod.fst hhead) heq
        · exact hmem

theorem lookup_of_perm (h : (entries.map (·.1)).Nodup) (hperm : entries.Perm others) (key : α) :
    entries.lookup key = others.lookup key := by
  refine Option.ext ?_
  intro value
  rw [lookup_eq_some_iff_of_nodup h, lookup_eq_some_iff_of_nodup (nodup_keys_of_perm h hperm),
    hperm.mem_iff]

end Lookup

namespace FileTree

/-- No two entries are for one path. -/
def WellFormed (tree : FileTree) : Prop := (tree.entries.map (·.1)).Nodup

instance (tree : FileTree) : Decidable tree.WellFormed :=
  inferInstanceAs (Decidable (tree.entries.map (·.1)).Nodup)

/-- The same entries in another order, seen from the same working directory. -/
structure Reordered (tree other : FileTree) : Prop where
  perm : tree.entries.Perm other.entries
  working : tree.working = other.working

variable {tree other : FileTree}

theorem Reordered.symm (h : tree.Reordered other) : other.Reordered tree :=
  ⟨h.perm.symm, h.working.symm⟩

theorem WellFormed.of_reordered (h : tree.WellFormed) (hsame : tree.Reordered other) :
    other.WellFormed :=
  nodup_keys_of_perm h hsame.perm

theorem at?_of_reordered (h : tree.WellFormed) (hsame : tree.Reordered other)
    (names : List OsText) : tree.at? names = other.at? names := by
  rw [at?, at?, lookup_of_perm h hsame.perm]

/-- Where segments lead to depends on what is found under names. -/
theorem descend_congr (h : ∀ names, tree.at? names = other.at? names)
    (names : List OsText) (segments : List String) :
    tree.descend names segments = other.descend names segments := by
  induction segments generalizing names with
  | nil => rfl
  | cons segment rest ih =>
    rw [descend, descend, h names]
    simp only [ih]

theorem names_of_reordered (h : tree.WellFormed) (hsame : tree.Reordered other) (path : String) :
    tree.names path = other.names path := by
  rw [names, names, hsame.working, descend_congr (at?_of_reordered h hsame)]

theorem find_of_reordered (h : tree.WellFormed) (hsame : tree.Reordered other) (path : String) :
    tree.find path = other.find path := by
  simp only [find, names_of_reordered h hsame, at?_of_reordered h hsame]

theorem isDirectory_of_reordered (h : tree.WellFormed) (hsame : tree.Reordered other)
    (path : String) : tree.isDirectory path = other.isDirectory path := by
  rw [isDirectory, isDirectory, find_of_reordered h hsame]

theorem readText_of_reordered (h : tree.WellFormed) (hsame : tree.Reordered other)
    (path : String) : tree.readText path = other.readText path := by
  simp only [readText, read, find_of_reordered h hsame]

/-! ## Directories -/

/-- The name of an entry in a directory. -/
def nameIn (names key : List OsText) : Option OsText :=
  match key.reverse with
  | name :: above => if above.reverse = names then some name else none
  | [] => none

theorem eq_append_of_nameIn {names key : List OsText} {name : OsText}
    (h : nameIn names key = some name) : key = names ++ [name] := by
  unfold nameIn at h
  split at h
  · next last above hreverse =>
    split at h
    · next habove =>
      cases h
      rw [← habove, ← List.reverse_reverse key, hreverse, List.reverse_cons]
    · cases h
  · cases h

/-- What a directory lists. -/
def entriesIn (tree : FileTree) (names : List OsText) : List (OsText × FileEntry) :=
  tree.entries.filterMap fun entry => (nameIn names entry.1).map fun name => (name, entry.2)

theorem list_eq_ok {path : String} {listed : List (OsText × FileEntry)} :
    tree.list path = .ok listed ↔ ∃ names, tree.names path = .ok names ∧
      tree.at? names = some .directory ∧ listed = tree.entriesIn names := by
  rw [list, bind_eq_ok]
  refine exists_congr fun names => and_congr_right fun _ => ?_
  cases tree.at? names with
  | none =>
    constructor
    · intro h
      cases h
    · rintro ⟨h, -⟩
      cases h
  | some entry =>
    cases entry with
    | file content =>
      constructor
      · intro h
        cases h
      · rintro ⟨h, -⟩
        cases h
    | directory =>
      rw [Except.ok.injEq, and_iff_right rfl, eq_comm, entriesIn]
      refine iff_of_eq (congrArg (listed = ·) (List.filterMap_congr ?_))
      rintro ⟨key, entry⟩ -
      unfold nameIn
      dsimp only
      cases key.reverse with
      | nil => rfl
      | cons name above =>
        by_cases habove : above.reverse = names
        · simp only [habove, if_true, Option.map_some]
        · simp only [habove, if_false, Option.map_none]

/-- A directory can be listed. -/
theorem exists_list_of_isDirectory {path : String} (h : tree.isDirectory path = true) :
    ∃ listed, tree.list path = .ok listed := by
  unfold isDirectory at h
  split at h
  · next hfind =>
    rw [find] at hfind
    obtain ⟨names, hnames, hentry⟩ := bind_eq_ok.1 hfind
    refine ⟨tree.entriesIn names, list_eq_ok.2 ⟨names, hnames, ?_, rfl⟩⟩
    split at hentry
    · next entry hsome =>
      cases hentry
      exact hsome
    · cases hentry
  · cases h

theorem isDirectory_of_list {path : String} {listed : List (OsText × FileEntry)}
    (h : tree.list path = .ok listed) : tree.isDirectory path = true := by
  obtain ⟨names, hnames, hentry, -⟩ := list_eq_ok.1 h
  have hfind : tree.find path = .ok .directory :=
    bind_eq_ok.2 ⟨names, hnames, by rw [hentry]⟩
  rw [isDirectory, hfind]

/-- No name is listed twice. -/
theorem nodup_of_list (h : tree.WellFormed) {path : String} {listed : List (OsText × FileEntry)}
    (hlist : tree.list path = .ok listed) : (listed.map (·.1)).Nodup := by
  obtain ⟨names, -, -, rfl⟩ := list_eq_ok.1 hlist
  have hnames : (tree.entriesIn names).map (·.1) =
      (tree.entries.map (·.1)).filterMap (nameIn names) := by
    rw [entriesIn, List.map_filterMap, List.filterMap_map]
    refine List.filterMap_congr ?_
    intro entry _
    rw [Option.map_map]
    exact Option.map_id'
  rw [hnames]
  refine h.filterMap ?_
  intro key key' name hkey hkey'
  rw [eq_append_of_nameIn hkey, eq_append_of_nameIn hkey']

/-- What is listed depends on the order of the entries only in its order. -/
theorem list_of_reordered (h : tree.WellFormed) (hsame : tree.Reordered other) {path : String}
    {listed : List (OsText × FileEntry)} (hlist : tree.list path = .ok listed) :
    ∃ listed', other.list path = .ok listed' ∧ listed.Perm listed' := by
  obtain ⟨names, hnames, hentry, rfl⟩ := list_eq_ok.1 hlist
  refine ⟨other.entriesIn names, list_eq_ok.2 ⟨names, ?_, ?_, rfl⟩, hsame.perm.filterMap _⟩
  · rw [← hnames, names_of_reordered h hsame]
  · rw [← hentry, at?_of_reordered h hsame]

end FileTree

/-! ## Writing -/

namespace FileTree

/-- A file can be written. -/
def Writable (files : FileTree) (path : String) : Prop :=
  ∀ content, ∃ after, files.write path content = .ok after

variable {files : FileTree} {content : List UInt8}

/-- The names of the file that is written at a path. -/
def written (files : FileTree) (path : String) : Except FileFault (List OsText) := do
  let names ← files.names path
  match files.at? names, files.at? names.dropLast with
  | some .directory, _ => .error .isDirectory
  | _, some .directory => if path.endsWith "/" then .error .isDirectory else .ok names
  | _, some (.file _) => .error .notDirectory
  | _, none => .error .notFound

/-- Whether a file can be written does not depend on its content. -/
theorem write_eq (path : String) :
    files.write path content = (files.written path).map (files.put · (.file content)) := by
  rw [write, written]
  cases files.names path with
  | error fault => rfl
  | ok names =>
    simp only [bind, Except.bind]
    cases path.endsWith "/" <;> rcases files.at? names with _ | _ | _ <;>
      rcases files.at? names.dropLast with _ | _ | _ <;> rfl

theorem writable_of_write {after : FileTree} {path : String}
    (h : files.write path content = .ok after) : files.Writable path := by
  intro other
  rw [write_eq] at h
  obtain ⟨names, hnames, -⟩ := map_eq_ok.1 h
  exact ⟨_, by rw [write_eq, hnames]; rfl⟩

/-- A report that is asked for can be written. -/
theorem exists_write_iff {report : Option String} :
    (∃ after, ∀ path ∈ report, files.write path content = .ok after) ↔
      ∀ path ∈ report, files.Writable path := by
  cases report with
  | none => exact ⟨fun _ => nofun, fun _ => ⟨files, nofun⟩⟩
  | some report =>
    constructor
    · rintro ⟨after, hafter⟩ _ ⟨⟩
      exact writable_of_write (hafter report rfl)
    · intro hwritable
      obtain ⟨after, hafter⟩ := hwritable report rfl content
      refine ⟨after, ?_⟩
      rintro _ ⟨⟩
      exact hafter

end FileTree

end ApiContract
