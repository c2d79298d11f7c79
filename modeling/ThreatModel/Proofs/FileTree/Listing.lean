import ThreatModel.FileTree

/-!
# The files of a tree

A path leads from a directory to what stands below its names. Main statements: a tree lists the files that
some path leads to without passing a hidden directory, and lists them in increasing order of their paths.
-/

namespace ThreatModel.FileTree

/-- Induction over a tree: a directory is settled once all that it holds is. -/
@[induction_eliminator]
theorem induct {motive : FileTree → Prop} (file : ∀ bytes, motive (file bytes))
    (directory : ∀ entries, (∀ entry ∈ entries, motive entry.2) → motive (directory entries)) :
    ∀ tree, motive tree
  | .file bytes => file bytes
  | .directory entries => directory entries fun entry held =>
    have smaller : sizeOf entry.2 < 1 + sizeOf entries := by
      have inList := List.sizeOf_lt_of_mem held
      have inEntry : sizeOf entry = 1 + sizeOf entry.1 + sizeOf entry.2 := rfl
      omega
    induct file directory entry.2
termination_by tree => sizeOf tree

/-! ## What a path leads to -/

/-- The names of a path lead from one tree to another inside it. -/
inductive Leads : FileTree → List String → FileTree → Prop
  | here (tree : FileTree) : Leads tree [] tree
  | inside {entries : List (String × FileTree)} {name : String} {inner found : FileTree} {path : List String} :
    (name, inner) ∈ entries → Leads inner path found → Leads (directory entries) (name :: path) found

/-- Every directory of the tree has different names. -/
def Distinct (tree : FileTree) : Prop :=
  ∀ path entries, Leads tree path (directory entries) → (entries.map Prod.fst).Nodup

/-- No directory on the way to a file is hidden; the file itself may be. -/
def Shown (path : List String) : Prop := ∀ name ∈ path.dropLast, isHidden name = false

@[simp] theorem leads_file {bytes : Option ByteArray} {path : List String} {found : FileTree} :
    Leads (file bytes) path found ↔ path = [] ∧ found = file bytes := by
  constructor
  · rintro ⟨⟩
    exact ⟨rfl, rfl⟩
  · rintro ⟨rfl, rfl⟩
    exact .here _

@[simp] theorem distinct_file {bytes : Option ByteArray} : Distinct (file bytes) := by
  intro path entries leads
  cases (leads_file.mp leads).2

@[simp] theorem distinct_directory {entries : List (String × FileTree)} :
    Distinct (directory entries) ↔
      (entries.map Prod.fst).Nodup ∧ ∀ name inner, (name, inner) ∈ entries → Distinct inner := by
  constructor
  · intro distinct
    refine ⟨distinct [] entries (.here _), fun name inner held path deeper leads => ?_⟩
    exact distinct (name :: path) deeper (.inside held leads)
  · rintro ⟨here, inside⟩ path deeper leads
    cases leads with
    | here => exact here
    | inside held leads => exact inside _ _ held _ deeper leads

theorem shown_nil : Shown [] := by simp [Shown]

theorem shown_cons {name : String} {path : List String} :
    Shown (name :: path) ↔ (path = [] ∨ isHidden name = false) ∧ Shown path := by
  cases path <;> simp [Shown]

/-! ## The listing -/

/-- The files under a name, of which a hidden directory shows none. -/
def filesUnder (name : String) (tree : FileTree) : List Entry :=
  if tree.isDirectory && isHidden name then [] else files tree

theorem groups_eq (entries : List (String × FileTree)) :
    groups entries = entries.map fun entry => (entry.1, filesUnder entry.1 entry.2) := by
  induction entries with
  | nil => rfl
  | cons entry rest ih =>
    rw [groups, ih]
    rfl

theorem mem_files_directory {entries : List (String × FileTree)} {entry : Entry} :
    entry ∈ (directory entries).files ↔ ∃ name inner, (name, inner) ∈ entries ∧
      ∃ deeper ∈ filesUnder name inner, deeper.within name = entry := by
  simp only [files, groups_eq, List.mem_flatMap, List.mem_mergeSort, List.mem_map, Prod.exists, Prod.mk.injEq]
  constructor
  · rintro ⟨_, _, ⟨name, inner, held, rfl, rfl⟩, deeper, listed, rfl⟩
    exact ⟨name, inner, held, deeper, listed, rfl⟩
  · rintro ⟨name, inner, held, deeper, listed, rfl⟩
    exact ⟨_, _, ⟨name, inner, held, rfl, rfl⟩, deeper, listed, rfl⟩

/-- A hidden name hides what is in a directory, but not a file. -/
theorem mem_filesUnder {name : String} {tree : FileTree} {entry : Entry} :
    entry ∈ filesUnder name tree ↔ entry ∈ tree.files ∧ (tree.isDirectory → isHidden name = false) := by
  rw [filesUnder]
  by_cases directory : tree.isDirectory <;> by_cases hidden : isHidden name <;> simp [directory, hidden]

theorem Leads.eq_nil_iff {tree : FileTree} {path : List String} {bytes : Option ByteArray}
    (leads : Leads tree path (file bytes)) : path = [] ↔ tree.isDirectory = false := by
  cases leads <;> simp [isDirectory]

/-- A tree lists the files that it shows. -/
theorem mem_files {tree : FileTree} {entry : Entry} :
    entry ∈ tree.files ↔ Leads tree entry.path (file entry.bytes) ∧ Shown entry.path := by
  induction tree generalizing entry with
  | file bytes =>
    obtain ⟨path, content⟩ := entry
    simp only [files, List.mem_singleton, Entry.mk.injEq, leads_file, file.injEq]
    constructor
    · rintro ⟨rfl, rfl⟩
      exact ⟨⟨rfl, rfl⟩, shown_nil⟩
    · exact And.left
  | directory entries ih =>
    rw [mem_files_directory]
    constructor
    · rintro ⟨name, inner, held, deeper, listed, rfl⟩
      obtain ⟨listed, visible⟩ := mem_filesUnder.mp listed
      obtain ⟨leads, shown⟩ := (ih (name, inner) held).mp listed
      refine ⟨.inside held leads, shown_cons.mpr ⟨?_, shown⟩⟩
      rw [leads.eq_nil_iff]
      cases isDirectory : inner.isDirectory with
      | false => exact .inl rfl
      | true => exact .inr (visible isDirectory)
    · obtain ⟨path, bytes⟩ := entry
      rintro ⟨leads, shown⟩
      cases leads with
      | inside held leads =>
        rename_i name inner path
        obtain ⟨passed, shown⟩ := shown_cons.mp shown
        refine ⟨name, inner, held, ⟨path, bytes⟩, mem_filesUnder.mpr ⟨?_, ?_⟩, rfl⟩
        · exact (ih (name, inner) held).mpr ⟨leads, shown⟩
        · intro isDirectory
          rw [leads.eq_nil_iff, isDirectory] at passed
          exact passed.resolve_left (by decide)

/-! ## The order of the listing -/

/-- The names of a directory are in increasing order once they are sorted. -/
theorem groups_ordered {entries : List (String × FileTree)} (distinct : (entries.map Prod.fst).Nodup) :
    ((groups entries).mergeSort precedes).Pairwise (fun left right => left.1 < right.1) := by
  have sorted : ((groups entries).mergeSort precedes).Pairwise (fun left right => precedes left right) := by
    refine List.pairwise_mergeSort ?_ ?_ _
    · intro a b c first second
      simp only [precedes, decide_eq_true_eq] at first second ⊢
      exact String.le_trans first second
    · intro a b
      simpa [precedes] using String.le_total a.1 b.1
  have different : (((groups entries).mergeSort precedes).map Prod.fst).Nodup := by
    have names : (groups entries).map Prod.fst = entries.map Prod.fst := by
      rw [groups_eq, List.map_map]
      rfl
    refine (((List.mergeSort_perm _ precedes).map Prod.fst).nodup_iff).mpr ?_
    rwa [names]
  refine (sorted.and (List.pairwise_map.mp different)).imp ?_
  rintro a b ⟨before, apart⟩
  rw [precedes, decide_eq_true_eq] at before
  rw [← String.not_le]
  exact fun after => apart (String.le_antisymm before after)

/-- The files of a tree are in increasing order of their paths, so each is listed once. -/
theorem files_ordered {tree : FileTree} (distinct : Distinct tree) :
    tree.files.Pairwise fun left right => left.path < right.path := by
  induction tree with
  | file bytes => simp [files]
  | directory entries ih =>
    obtain ⟨names, inside⟩ := distinct_directory.mp distinct
    rw [files, List.pairwise_flatMap]
    constructor
    · intro group member
      rw [List.mem_mergeSort, groups_eq, List.mem_map] at member
      obtain ⟨⟨name, inner⟩, held, rfl⟩ := member
      rw [List.pairwise_map]
      have ordered : (filesUnder name inner).Pairwise fun left right => left.path < right.path := by
        rw [filesUnder]
        split
        · exact .nil
        · exact ih _ held (inside name inner held)
      refine ordered.imp fun before => ?_
      exact List.cons_lt_cons_iff.mpr (.inr ⟨rfl, before⟩)
    · refine (groups_ordered names).imp fun before left inLeft right inRight => ?_
      obtain ⟨_, _, rfl⟩ := List.mem_map.mp inLeft
      obtain ⟨_, _, rfl⟩ := List.mem_map.mp inRight
      exact List.cons_lt_cons_iff.mpr (.inl before)

end ThreatModel.FileTree
