import ThreatModel.Catalog.Loading
import ThreatModel.Proofs.Document.Header
import ThreatModel.Proofs.FileTree.Listing
import Mathlib.Data.List.Forall2

/-!
# Loading the documents of a tree

Main statement: a load reports every file that the tree shows once, in the order of their paths, and adds the
documents of the files that it reports as loaded. Where a file brought a document, a second load finds the id
taken; it changes nothing.
-/

namespace ThreatModel

/-! ## Names of files -/

/-- Whether a name ends as the names of YAML files do. -/
def YamlName (name : String) : Prop := ∃ stem, name = stem ++ ".yml" ∨ name = stem ++ ".yaml"

theorem extension?_of_split {name : String} {front behind : List Char} (whole : name.toList = front ++ '.' :: behind)
    (last : '.' ∉ behind) : extension? name = some (String.ofList behind) := by
  rw [extension?, whole, List.splitOn_append_cons_self, List.splitOn_eq_singleton last, List.reverse_append]
  cases parts : (front.splitOn '.').reverse with
  | nil => exact absurd (List.reverse_eq_nil_iff.mp parts) (List.splitOn_ne_nil '.' front)
  | cons part more => rfl

/-- The extension of a name is what follows its last point. -/
theorem extension?_eq_some_iff {name ending : String} :
    extension? name = some ending ↔ '.' ∉ ending.toList ∧ ∃ stem, name = stem ++ "." ++ ending := by
  constructor
  · intro found
    by_cases pointed : '.' ∈ name.toList
    · -- The last point of a name is the first one from behind.
      obtain ⟨behind, front, whole, last⟩ := List.eq_append_cons_of_mem (List.mem_reverse.mpr pointed)
      have split : name.toList = front.reverse ++ '.' :: behind.reverse := by
        rw [← name.toList.reverse_reverse, whole]
        simp
      rw [← List.mem_reverse] at last
      rw [extension?_of_split split last, Option.some.injEq] at found
      subst found
      refine ⟨by simpa using last, String.ofList front.reverse, ?_⟩
      rw [← String.toList_inj, split]
      simp
    · rw [extension?, List.splitOn_eq_singleton pointed] at found
      cases found
  · rintro ⟨last, stem, rfl⟩
    have split : (stem ++ "." ++ ending).toList = stem.toList ++ '.' :: ending.toList := by simp
    rw [extension?_of_split split last, String.ofList_toList]

theorem isYamlName_iff {name : String} : isYamlName name ↔ YamlName name := by
  have ends (ending : String) (plain : '.' ∉ ending.toList) :
      extension? name = some ending ↔ ∃ stem, name = stem ++ "." ++ ending := by
    simp [extension?_eq_some_iff, plain]
  simp only [isYamlName, Bool.or_eq_true, decide_eq_true_eq, ends "yml" (by decide), ends "yaml" (by decide),
    YamlName, String.append_assoc, exists_or]
  rfl

theorem skipReason?_eq_none {name : String} :
    skipReason? name = none ↔ ¬FileTree.isHidden name ∧ YamlName name := by
  unfold skipReason?
  by_cases hidden : FileTree.isHidden name <;> simp [hidden, ← isYamlName_iff]

/-! ## What becomes of a file -/

/-- The id of the document that a file brought. -/
def LoadStatus.loadedId? : LoadStatus → Option String
  | loaded id _ => some id
  | _ => none

/-- What becomes of a file that is loaded once more. -/
def LoadStatus.again : LoadStatus → LoadStatus
  | loaded id _ => failed (.duplicateId id)
  | status => status

def LoadResult.again (result : LoadResult) : LoadResult := { result with status := result.status.again }

namespace Catalog

/-- The ids that are taken. -/
def ids (catalog : Catalog) : List String := catalog.documents.map Document.id

/-- The bytes of a file are the text of a document whose id is not blank. -/
def Reads (bytes : Option ByteArray) (document : Document) : Prop :=
  ∃ text, bytes.bind String.fromUTF8? = some text ∧ Document.ofText text = .ok document ∧
    Text.isVacant document.id = false

/-- What becomes of a file when the documents with some ids are there. -/
def Becomes (held : List String) (name : String) (bytes : Option ByteArray) : LoadStatus → Prop
  | .skipped .hidden => FileTree.isHidden name
  | .skipped .notYaml => ¬FileTree.isHidden name ∧ ¬YamlName name
  | .loaded id kind => ¬FileTree.isHidden name ∧ YamlName name ∧
      ∃ document, Reads bytes document ∧ document.id ∉ held ∧ id = document.id ∧ kind = document.kind
  | .failed error => ¬FileTree.isHidden name ∧ YamlName name ∧
      ∀ document, Reads bytes document → document.id ∈ held ∧ error = .duplicateId document.id

theorem becomes_skipped {held : List String} {name : String} {bytes : Option ByteArray} {reason : SkipReason}
    (skipped : skipReason? name = some reason) : Becomes held name bytes (.skipped reason) := by
  unfold skipReason? at skipped
  split at skipped
  · cases skipped
    assumption
  · split at skipped
    · cases skipped
    · cases skipped
      rename_i visible other
      exact ⟨visible, fun yaml => other (isYamlName_iff.mpr yaml)⟩

theorem readBytes_eq_ok {bytes : Option ByteArray} {document : Document} :
    readBytes bytes = .ok document ↔ Reads bytes document := by
  unfold readBytes Reads
  cases bytes.bind String.fromUTF8? <;> simp [read_eq_ok]

/-! ## One file -/

section File

variable {catalog : Catalog} {entry : FileTree.Entry}

theorem loadFile_skipped {reason : SkipReason} (skipped : skipReason? (entry.path.getLastD "") = some reason) :
    catalog.loadFile entry = (.skipped reason, catalog) := by
  simp only [loadFile, skipped]

theorem loadFile_unread {error : LoadError} (seen : skipReason? (entry.path.getLastD "") = none)
    (unread : readBytes entry.bytes = .error error) : catalog.loadFile entry = (.failed error, catalog) := by
  simp only [loadFile, seen, addBytes, unread, bind, Except.bind]

theorem loadFile_taken {document : Document} (seen : skipReason? (entry.path.getLastD "") = none)
    (read : readBytes entry.bytes = .ok document) (taken : document.id ∈ catalog.ids) :
    catalog.loadFile entry = (.failed (.duplicateId document.id), catalog) := by
  have refused : catalog.insert document = .error (.duplicateId document.id) := dif_pos taken
  simp only [loadFile, seen, addBytes, read, refused, bind, Except.bind]

theorem loadFile_added {document : Document} (seen : skipReason? (entry.path.getLastD "") = none)
    (read : readBytes entry.bytes = .ok document) (free : document.id ∉ catalog.ids) :
    ∃ next, next.documents = catalog.documents ++ [document] ∧
      catalog.loadFile entry = (.loaded document.id document.kind, next) := by
  obtain ⟨next, added, grown⟩ : ∃ next, catalog.insert document = .ok next ∧
      next.documents = catalog.documents ++ [document] := ⟨_, dif_neg free, rfl⟩
  refine ⟨next, grown, ?_⟩
  simp only [loadFile, seen, addBytes, read, added, bind, Except.bind]
  rfl

end File

/-- What loading a file does: the file is passed over, it cannot be read, the id of its document is taken, or
its document is added. -/
theorem loadFile_cases (catalog : Catalog) (entry : FileTree.Entry) :
    (∃ reason, skipReason? (entry.path.getLastD "") = some reason ∧
      catalog.loadFile entry = (.skipped reason, catalog)) ∨
    skipReason? (entry.path.getLastD "") = none ∧
      ((∃ error, readBytes entry.bytes = .error error ∧ catalog.loadFile entry = (.failed error, catalog)) ∨
      (∃ document, readBytes entry.bytes = .ok document ∧ document.id ∈ catalog.ids ∧
        catalog.loadFile entry = (.failed (.duplicateId document.id), catalog)) ∨
      ∃ document next, readBytes entry.bytes = .ok document ∧ document.id ∉ catalog.ids ∧
        next.documents = catalog.documents ++ [document] ∧
        catalog.loadFile entry = (.loaded document.id document.kind, next)) := by
  cases seen : skipReason? (entry.path.getLastD "") with
  | some reason => exact .inl ⟨reason, rfl, loadFile_skipped seen⟩
  | none =>
    refine .inr ⟨rfl, ?_⟩
    cases read : readBytes entry.bytes with
    | error error => exact .inl ⟨error, rfl, loadFile_unread seen read⟩
    | ok document =>
      by_cases taken : document.id ∈ catalog.ids
      · exact .inr (.inl ⟨document, rfl, taken, loadFile_taken seen read taken⟩)
      · obtain ⟨next, grown, step⟩ := loadFile_added seen read taken
        exact .inr (.inr ⟨document, next, rfl, taken, grown, step⟩)

/-- The document that a file brings stands behind those that were there. -/
theorem loadFile_documents (catalog : Catalog) (entry : FileTree.Entry) :
    (catalog.loadFile entry).1.loadedId? = none ∧ (catalog.loadFile entry).2 = catalog ∨
    ∃ document, Reads entry.bytes document ∧ (catalog.loadFile entry).1 = .loaded document.id document.kind ∧
      (catalog.loadFile entry).2.documents = catalog.documents ++ [document] := by
  obtain ⟨_, _, step⟩ | ⟨_, ⟨_, _, step⟩ | ⟨_, _, _, step⟩ | ⟨document, next, found, _, grown, step⟩⟩ :=
    catalog.loadFile_cases entry
  · exact .inl (by simp [step, LoadStatus.loadedId?])
  · exact .inl (by simp [step, LoadStatus.loadedId?])
  · exact .inl (by simp [step, LoadStatus.loadedId?])
  · exact .inr ⟨document, readBytes_eq_ok.mp found, by rw [step], by rw [step, grown]⟩

theorem loadFile_ids (catalog : Catalog) (entry : FileTree.Entry) :
    (catalog.loadFile entry).2.ids = catalog.ids ++ (catalog.loadFile entry).1.loadedId?.toList := by
  obtain ⟨none, same⟩ | ⟨document, _, status, grown⟩ := catalog.loadFile_documents entry
  · rw [none, same]
    exact (List.append_nil _).symm
  · rw [status, ids, grown, List.map_append]
    rfl

theorem loadFile_becomes (catalog : Catalog) (entry : FileTree.Entry) :
    Becomes catalog.ids (entry.path.getLastD "") entry.bytes (catalog.loadFile entry).1 := by
  obtain ⟨reason, skipped, step⟩ | ⟨seen, cases⟩ := catalog.loadFile_cases entry
  · rw [step]
    exact becomes_skipped skipped
  obtain ⟨visible, yaml⟩ := skipReason?_eq_none.mp seen
  obtain ⟨error, unread, step⟩ | ⟨document, read, taken, step⟩ | ⟨document, next, read, free, _, step⟩ := cases
  · rw [step]
    refine ⟨visible, yaml, fun document reads => ?_⟩
    rw [← readBytes_eq_ok, unread] at reads
    cases reads
  · rw [step]
    refine ⟨visible, yaml, fun other reads => ?_⟩
    rw [← readBytes_eq_ok, read] at reads
    cases reads
    exact ⟨taken, rfl⟩
  · rw [step]
    exact ⟨visible, yaml, document, readBytes_eq_ok.mp read, free, rfl, rfl⟩

/-- Once all that a file can bring is there, the file changes nothing. -/
theorem loadFile_again {catalog later : Catalog} {entry : FileTree.Entry}
    (held : (catalog.loadFile entry).2.ids ⊆ later.ids) :
    later.loadFile entry = ((catalog.loadFile entry).1.again, later) := by
  obtain ⟨reason, skipped, step⟩ | ⟨seen, ⟨error, unread, step⟩ | ⟨document, read, taken, step⟩ |
    ⟨document, next, read, _, grown, step⟩⟩ := catalog.loadFile_cases entry
  · rw [step, loadFile_skipped skipped]
    rfl
  · rw [step, loadFile_unread seen unread]
    rfl
  · rw [step] at held ⊢
    rw [loadFile_taken seen read (held taken)]
    rfl
  · rw [step] at held ⊢
    have brought : document.id ∈ next.ids := by simp [ids, grown]
    rw [loadFile_taken seen read (held brought)]
    rfl

/-! ## All files -/

theorem loadFiles_cons (catalog : Catalog) (entry : FileTree.Entry) (rest : List FileTree.Entry) :
    catalog.loadFiles (entry :: rest) =
      (⟨entry.path, (catalog.loadFile entry).1⟩ :: ((catalog.loadFile entry).2.loadFiles rest).1,
        ((catalog.loadFile entry).2.loadFiles rest).2) := rfl

theorem loadFiles_paths (catalog : Catalog) (entries : List FileTree.Entry) :
    (catalog.loadFiles entries).1.map LoadResult.path = entries.map FileTree.Entry.path := by
  induction entries generalizing catalog with
  | nil => rfl
  | cons entry rest ih => rw [loadFiles_cons, List.map_cons, List.map_cons, ih]

/-- Each file finds the ids that the catalog had and those that the files before it brought. -/
theorem loadFiles_becomes {catalog : Catalog} {entries : List FileTree.Entry} {before rest : List LoadResult}
    {result : LoadResult} (split : (catalog.loadFiles entries).1 = before ++ result :: rest) :
    ∃ entry ∈ entries, entry.path = result.path ∧
      Becomes (catalog.ids ++ before.filterMap (·.status.loadedId?)) (entry.path.getLastD "") entry.bytes
        result.status := by
  induction entries generalizing catalog before with
  | nil => simp [loadFiles] at split
  | cons entry more ih =>
    rw [loadFiles_cons] at split
    cases before with
    | nil =>
      simp only [List.nil_append, List.cons.injEq] at split
      obtain ⟨rfl, _⟩ := split
      refine ⟨entry, List.mem_cons_self, rfl, ?_⟩
      rw [List.filterMap_nil, List.append_nil]
      exact catalog.loadFile_becomes entry
    | cons first before =>
      simp only [List.cons_append, List.cons.injEq] at split
      obtain ⟨rfl, split⟩ := split
      obtain ⟨later, member, path, becomes⟩ := ih split
      refine ⟨later, List.mem_cons_of_mem _ member, path, ?_⟩
      rw [loadFile_ids, List.append_assoc] at becomes
      rw [List.filterMap_cons]
      cases brought : (catalog.loadFile entry).1.loadedId? with
      | none => simpa [brought] using becomes
      | some id => simpa [brought] using becomes

/-- The result tells that one of some files brought a document. -/
def Brings (entries : List FileTree.Entry) (result : LoadResult) (document : Document) : Prop :=
  ∃ entry ∈ entries, entry.path = result.path ∧ Reads entry.bytes document ∧
    result.status = .loaded document.id document.kind

/-- The documents behind a load are those before it and those of the loaded files, in the order of the files. -/
theorem loadFiles_documents (catalog : Catalog) (entries : List FileTree.Entry) :
    ∃ added, (catalog.loadFiles entries).2.documents = catalog.documents ++ added ∧
      List.Forall₂ (Brings entries) ((catalog.loadFiles entries).1.filter (·.status.loadedId?.isSome)) added := by
  induction entries generalizing catalog with
  | nil => exact ⟨[], (List.append_nil _).symm, .nil⟩
  | cons entry rest ih =>
    obtain ⟨added, grown, brought⟩ := ih (catalog.loadFile entry).2
    have behind := brought.imp fun result document ⟨later, member, found⟩ =>
      show Brings (entry :: rest) result document from ⟨later, List.mem_cons_of_mem entry member, found⟩
    rw [loadFiles_cons]
    obtain ⟨nothing, same⟩ | ⟨document, reads, status, one⟩ := catalog.loadFile_documents entry
    · refine ⟨added, by rw [grown, same], ?_⟩
      rwa [List.filter_cons_of_neg (by simp [nothing])]
    · refine ⟨document :: added, by rw [grown, one, List.append_assoc, List.singleton_append], ?_⟩
      rw [List.filter_cons_of_pos (by simp [status, LoadStatus.loadedId?])]
      exact .cons ⟨entry, List.mem_cons_self, rfl, reads, status⟩ behind

theorem loadFiles_ids_subset (catalog : Catalog) (entries : List FileTree.Entry) :
    catalog.ids ⊆ (catalog.loadFiles entries).2.ids := by
  obtain ⟨added, grown, _⟩ := catalog.loadFiles_documents entries
  rw [ids, ids, grown, List.map_append]
  exact List.subset_append_left _ _

/-- Once all that the files can bring is there, they change nothing. -/
theorem loadFiles_again {catalog later : Catalog} {entries : List FileTree.Entry}
    (held : (catalog.loadFiles entries).2.ids ⊆ later.ids) :
    later.loadFiles entries = ((catalog.loadFiles entries).1.map LoadResult.again, later) := by
  induction entries generalizing catalog with
  | nil => rfl
  | cons entry rest ih =>
    rw [loadFiles_cons] at held ⊢
    have first : later.loadFile entry = ((catalog.loadFile entry).1.again, later) :=
      loadFile_again (List.Subset.trans (loadFiles_ids_subset _ rest) held)
    rw [loadFiles_cons, first, ih held]
    rfl

/-- A load of the files of a tree: what it reports, and the catalog behind it. -/
structure Loads (catalog : Catalog) (tree : FileTree) (results : List LoadResult) (after : Catalog) : Prop where
  /-- The files are reported in the order of their paths, each once. -/
  ordered : (results.map LoadResult.path).Pairwise (· < ·)
  /-- The files are those that the tree shows. -/
  listed : ∀ path, path ∈ results.map LoadResult.path ↔
    (∃ bytes, tree.Leads path (.file bytes)) ∧ FileTree.Shown path
  /-- Each file finds the ids that the catalog had and those that the files before it brought. -/
  settled : ∀ before result rest, results = before ++ result :: rest →
    ∃ bytes, tree.Leads result.path (.file bytes) ∧
      Becomes (catalog.ids ++ before.filterMap (·.status.loadedId?)) (result.path.getLastD "") bytes result.status
  /-- The loaded files bring their documents, and nothing else changes. -/
  documents : ∃ added, after.documents = catalog.documents ++ added ∧
    List.Forall₂ (fun result document => ∃ bytes, tree.Leads result.path (.file bytes) ∧ Reads bytes document ∧
      result.status = .loaded document.id document.kind)
      (results.filter (·.status.loadedId?.isSome)) added

/-- A directory is loaded as its tree tells, and loading it once more changes nothing. -/
theorem loadFrom_directory (catalog : Catalog) (root : String) {entries : List (String × FileTree)}
    (distinct : (FileTree.directory entries).Distinct) :
    ∃ results after, catalog.loadFrom root (some (.directory entries)) = .ok (results, after) ∧
      catalog.Loads (.directory entries) results after ∧
      after.loadFrom root (some (.directory entries)) = .ok (results.map LoadResult.again, after) := by
  let tree := FileTree.directory entries
  let run := catalog.loadFiles tree.files
  have shown {path : List String} {bytes : Option ByteArray} :
      ⟨path, bytes⟩ ∈ tree.files ↔ tree.Leads path (.file bytes) ∧ FileTree.Shown path := FileTree.mem_files
  refine ⟨run.1, run.2, rfl, ⟨?_, ?_, ?_, ?_⟩, ?_⟩
  · rw [loadFiles_paths, List.pairwise_map]
    exact FileTree.files_ordered distinct
  · intro path
    rw [loadFiles_paths, List.mem_map]
    constructor
    · rintro ⟨⟨path, bytes⟩, member, rfl⟩
      exact ⟨⟨bytes, (shown.mp member).1⟩, (shown.mp member).2⟩
    · rintro ⟨⟨bytes, leads⟩, visible⟩
      exact ⟨⟨path, bytes⟩, shown.mpr ⟨leads, visible⟩, rfl⟩
  · intro before result rest split
    obtain ⟨⟨path, bytes⟩, member, rfl, becomes⟩ := loadFiles_becomes split
    exact ⟨bytes, (shown.mp member).1, becomes⟩
  · obtain ⟨added, grown, brought⟩ := catalog.loadFiles_documents tree.files
    refine ⟨added, grown, brought.imp ?_⟩
    rintro result document ⟨⟨path, bytes⟩, member, rfl, reads, status⟩
    exact ⟨bytes, (shown.mp member).1, reads, status⟩
  · exact congrArg Except.ok (loadFiles_again (List.Subset.refl _))

/-- A directory in which every file has the same bytes. -/
def sampleEntries (bytes : Option ByteArray) : List (String × FileTree) :=
  [("notes.md", .file bytes), ("a.yml", .file bytes),
    ("a", .directory [("t.yaml", .file bytes), (".t.yml", .file bytes)]),
    (".git", .directory [("t.yml", .file bytes)])]

def sampleThreat : String :=
  "apiVersion: v1\nkind: Threat\nmetadata:\n  id: t1\n  name: Tampering\nseverity: high\n"

theorem files_sample (bytes : Option ByteArray) :
    (FileTree.directory (sampleEntries bytes)).files =
      [⟨["a", ".t.yml"], bytes⟩, ⟨["a", "t.yaml"], bytes⟩, ⟨["a.yml"], bytes⟩, ⟨["notes.md"], bytes⟩] := by
  simp +decide [sampleEntries, FileTree.files, FileTree.groups, FileTree.precedes, FileTree.isDirectory,
    FileTree.isHidden, FileTree.Entry.within, List.mergeSort, List.MergeSort.Internal.splitInTwo]

theorem loadFrom_directory_sample :
    (FileTree.directory (sampleEntries (some sampleThreat.toUTF8))).Distinct ∧
      ∃ results after,
        empty.loadFrom "rules" (some (.directory (sampleEntries (some sampleThreat.toUTF8)))) =
          .ok (results, after) ∧
        results = [⟨["a", ".t.yml"], .skipped .hidden⟩, ⟨["a", "t.yaml"], .loaded "t1" .threat⟩,
          ⟨["a.yml"], .failed (.duplicateId "t1")⟩, ⟨["notes.md"], .skipped .notYaml⟩] ∧
        empty.Loads (.directory (sampleEntries (some sampleThreat.toUTF8))) results after ∧
        after.loadFrom "rules" (some (.directory (sampleEntries (some sampleThreat.toUTF8)))) =
          .ok (results.map LoadResult.again, after) := by
  have distinct : (FileTree.directory (sampleEntries (some sampleThreat.toUTF8))).Distinct := by
    simp [sampleEntries, or_imp, forall_and]
  obtain ⟨results, after, run, loads, again⟩ := loadFrom_directory empty "rules" distinct
  refine ⟨distinct, results, after, run, ?_, loads, again⟩
  rw [loadFrom, files_sample, Except.ok.injEq] at run
  calc results = (empty.loadFiles _).1 := (congrArg Prod.fst run).symm
    _ = _ := by decide +kernel

end Catalog
end ThreatModel
