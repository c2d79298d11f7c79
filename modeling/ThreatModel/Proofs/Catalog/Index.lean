import ThreatModel.Proofs.Catalog.Loading
import ThreatModel.Proofs.Identity

/-!
# A catalog with an index

A catalog may be kept as a list of documents and, beside it, an index that gives the place of the document of each
id. Both are changed by each document that is added, one after the other. Main statement: after any calls, and at any
point within them, the index gives the places of the documents and nothing else, the documents stand in the order in
which they were added, and all calls are answered as the catalog answers them. A document whose id is taken changes
nothing.
-/

namespace ThreatModel.Catalog

/-! ## Calls -/

/-- What is asked of a catalog: to add a document, or to load what was found at a path. -/
inductive Call
  | insert (document : Document)
  | load (path : String) (found : Option FileTree)

inductive Answer
  | inserted (result : Except LoadError Unit)
  | loaded (result : Except LoadError (List LoadResult))

/-- Answers a call. A call that fails leaves the catalog as it was. -/
def answer (catalog : Catalog) : Call → Answer × Catalog
  | .insert document =>
    match catalog.insert document with
    | .ok next => (.inserted (.ok ()), next)
    | .error error => (.inserted (.error error), catalog)
  | .load path found =>
    match catalog.loadFrom path found with
    | .ok (results, next) => (.loaded (.ok results), next)
    | .error error => (.loaded (.error error), catalog)

/-- The document of a file that is looked at and can be read. -/
def brought? (entry : FileTree.Entry) : Option Document :=
  match skipReason? (entry.path.getLastD "") with
  | some _ => none
  | none => (readBytes entry.bytes).toOption

/-- The documents that a call tries to add, in order. -/
def Call.attempts : Call → List Document
  | insert document => [document]
  | load _ (some (.directory entries)) => (FileTree.directory entries).files.filterMap brought?
  | load _ _ => []

/-! ## What documents are added to -/

section Keeping

variable {σ τ : Type}

/-- Calls that are answered one after another. -/
def answers (answer : σ → Call → Answer × σ) (kept : σ) : List Call → List Answer × σ
  | [] => ([], kept)
  | call :: rest =>
    let (first, kept) := answer kept call
    let (others, kept) := answers answer kept rest
    (first :: others, kept)

variable (add : σ → Document → Except LoadError Unit × σ)

/-- Adds documents one after another. -/
def addEach (kept : σ) : List Document → List (Except LoadError Unit) × σ
  | [] => ([], kept)
  | document :: rest =>
    let (result, kept) := add kept document
    let (results, kept) := addEach kept rest
    (result :: results, kept)

/-- Looks at a file and adds its document. -/
def visit (kept : σ) (entry : FileTree.Entry) : LoadStatus × σ :=
  match skipReason? (entry.path.getLastD "") with
  | some reason => (.skipped reason, kept)
  | none =>
    match readBytes entry.bytes with
    | .error error => (.failed error, kept)
    | .ok document =>
      match add kept document with
      | (.ok _, kept) => (.loaded document.id document.kind, kept)
      | (.error error, kept) => (.failed error, kept)

def visitEach (kept : σ) : List FileTree.Entry → List LoadResult × σ
  | [] => ([], kept)
  | entry :: rest =>
    let (status, kept) := visit add kept entry
    let (results, kept) := visitEach kept rest
    (⟨entry.path, status⟩ :: results, kept)

/-- Answers a call by adding documents. -/
def perform (kept : σ) : Call → Answer × σ
  | .insert document =>
    let (result, kept) := add kept document
    (.inserted result, kept)
  | .load path found =>
    match found with
    | some (.directory entries) =>
      let (results, kept) := visitEach add kept (FileTree.directory entries).files
      (.loaded (.ok results), kept)
    | _ => (.loaded (.error (.missingDirectory path)), kept)

/-- The documents that were added, among those that were to be. -/
def added (tried : List Document) (results : List (Except LoadError Unit)) : List Document :=
  (tried.zip results).filterMap fun (document, result) => result.toOption.map fun _ => document

variable {add} {kept : σ}

theorem addEach_append (first second : List Document) :
    addEach add kept (first ++ second) =
      ((addEach add kept first).1 ++ (addEach add (addEach add kept first).2 second).1,
        (addEach add (addEach add kept first).2 second).2) := by
  induction first generalizing kept with
  | nil => rfl
  | cons document rest ih => simp only [List.cons_append, addEach, ih]

theorem visit_kept (entry : FileTree.Entry) :
    (visit add kept entry).2 = (addEach add kept (brought? entry).toList).2 := by
  unfold visit brought?
  split
  · rfl
  · cases readBytes entry.bytes with
    | error error => rfl
    | ok document =>
      dsimp only [Except.toOption, Option.toList, addEach]
      rcases add kept document with ⟨_ | _, next⟩ <;> rfl

theorem visitEach_kept (entries : List FileTree.Entry) :
    (visitEach add kept entries).2 = (addEach add kept (entries.filterMap brought?)).2 := by
  induction entries generalizing kept with
  | nil => rfl
  | cons entry rest ih =>
    have split : (entry :: rest).filterMap brought? = (brought? entry).toList ++ rest.filterMap brought? := by
      cases found : brought? entry <;> simp [found]
    rw [visitEach, split, addEach_append, ← visit_kept]
    exact ih

/-- A call changes what is kept by the documents that it tries to add, one after another. -/
theorem perform_kept (call : Call) : (perform add kept call).2 = (addEach add kept call.attempts).2 := by
  cases call with
  | insert document => rfl
  | load path found =>
    rcases found with _ | _ | entries
    · rfl
    · rfl
    · exact visitEach_kept (FileTree.directory entries).files

theorem answers_kept (calls : List Call) :
    (answers (perform add) kept calls).2 = (addEach add kept (calls.flatMap Call.attempts)).2 := by
  induction calls generalizing kept with
  | nil => rfl
  | cons call rest ih =>
    rw [answers, List.flatMap_cons, addEach_append, ← perform_kept]
    exact ih

/-! ## Two ways to keep documents -/

/-- Two ways to keep documents answer alike, as long as what they keep is related. -/
def Alike (add : σ → Document → Except LoadError Unit × σ) (add' : τ → Document → Except LoadError Unit × τ)
    (related : σ → τ → Prop) : Prop :=
  ∀ kept kept' document, related kept kept' →
    (add kept document).1 = (add' kept' document).1 ∧ related (add kept document).2 (add' kept' document).2

variable {add' : τ → Document → Except LoadError Unit × τ} {related : σ → τ → Prop} {kept' : τ}

theorem visit_alike (alike : Alike add add' related) (same : related kept kept') (entry : FileTree.Entry) :
    (visit add kept entry).1 = (visit add' kept' entry).1 ∧
      related (visit add kept entry).2 (visit add' kept' entry).2 := by
  unfold visit
  split
  · exact ⟨rfl, same⟩
  · split
    · exact ⟨rfl, same⟩
    · rename_i document _
      obtain ⟨result, next⟩ := alike kept kept' document same
      revert result next
      rcases add kept document with ⟨_ | _, after⟩ <;> rcases add' kept' document with ⟨_ | _, after'⟩ <;>
        simp +contextual

theorem visitEach_alike (alike : Alike add add' related) (same : related kept kept')
    (entries : List FileTree.Entry) :
    (visitEach add kept entries).1 = (visitEach add' kept' entries).1 ∧
      related (visitEach add kept entries).2 (visitEach add' kept' entries).2 := by
  induction entries generalizing kept kept' with
  | nil => exact ⟨rfl, same⟩
  | cons entry rest ih =>
    obtain ⟨status, next⟩ := visit_alike alike same entry
    obtain ⟨results, after⟩ := ih next
    exact ⟨by simp only [visitEach, status, results], after⟩

theorem perform_alike (alike : Alike add add' related) (same : related kept kept') (call : Call) :
    (perform add kept call).1 = (perform add' kept' call).1 ∧
      related (perform add kept call).2 (perform add' kept' call).2 := by
  unfold perform
  split
  · rename_i document
    obtain ⟨result, next⟩ := alike kept kept' document same
    exact ⟨congrArg Answer.inserted result, next⟩
  · split
    · obtain ⟨results, next⟩ := visitEach_alike alike same (FileTree.directory _).files
      exact ⟨congrArg (fun results => Answer.loaded (.ok results)) results, next⟩
    · exact ⟨rfl, same⟩

theorem answers_alike (alike : Alike add add' related) (same : related kept kept') (calls : List Call) :
    (answers (perform add) kept calls).1 = (answers (perform add') kept' calls).1 ∧
      related (answers (perform add) kept calls).2 (answers (perform add') kept' calls).2 := by
  induction calls generalizing kept kept' with
  | nil => exact ⟨rfl, same⟩
  | cons call rest ih =>
    obtain ⟨first, next⟩ := perform_alike alike same call
    obtain ⟨others, after⟩ := ih next
    exact ⟨by simp only [answers, first, others], after⟩

end Keeping

/-- Adds a document to a catalog, if its id is free. -/
def add (catalog : Catalog) (document : Document) : Except LoadError Unit × Catalog :=
  match catalog.insert document with
  | .ok next => (.ok (), next)
  | .error error => (.error error, catalog)

theorem visit_add (catalog : Catalog) (entry : FileTree.Entry) : visit add catalog entry = catalog.loadFile entry := by
  unfold visit loadFile addBytes
  cases skipReason? (entry.path.getLastD "") with
  | some reason => rfl
  | none =>
    cases readBytes entry.bytes with
    | error error => rfl
    | ok document =>
      dsimp only [add, bind, Except.bind]
      cases catalog.insert document <;> rfl

theorem visitEach_add (catalog : Catalog) (entries : List FileTree.Entry) :
    visitEach add catalog entries = catalog.loadFiles entries := by
  induction entries generalizing catalog with
  | nil => rfl
  | cons entry rest ih => simp only [visitEach, loadFiles, visit_add, ih]

theorem perform_add : perform add = answer := by
  funext catalog call
  unfold perform answer
  cases call with
  | insert document =>
    simp only [add]
    cases catalog.insert document <;> rfl
  | load path found =>
    simp only [loadFrom]
    split <;> simp [visitEach_add]

/-! ## The index -/

/-- Documents in the order in which they were added, and for each id the place of its document. -/
structure Indexed where
  documents : List Document
  index : String → Option Nat

namespace Indexed

def empty : Indexed := ⟨[], fun _ => none⟩

/-- The document of an id, at the place that the index gives. -/
def find? (store : Indexed) (id : String) : Option Document :=
  (store.index id).bind fun place => store.documents[place]?

def rules (store : Indexed) : List Rule := store.documents.filterMap Document.rule?

def threats (store : Indexed) : List Threat := store.documents.filterMap Document.threat?

/-- Adds a document behind the others and its place to the index, unless the index has its id. -/
def insert (store : Indexed) (document : Document) : Except LoadError Unit × Indexed :=
  if (store.index document.id).isSome then (.error (.duplicateId document.id), store)
  else
    let index := Function.update store.index document.id (some store.documents.length)
    (.ok (), ⟨store.documents ++ [document], index⟩)

/-- The index gives the place of each document, and nothing else. -/
def Exact (store : Indexed) : Prop :=
  ∀ id place, store.index id = some place ↔ ∃ document, store.documents[place]? = some document ∧ document.id = id

variable {store : Indexed} {document : Document}

theorem exact_empty : empty.Exact := Places.nil Document.id

theorem insert_taken (exact : store.Exact) (taken : ∃ held ∈ store.documents, held.id = document.id) :
    store.insert document = (.error (.duplicateId document.id), store) :=
  if_pos ((Places.isSome_iff exact).mpr taken)

theorem insert_free (exact : store.Exact) (free : ∀ held ∈ store.documents, held.id ≠ document.id) :
    store.insert document = (.ok (), ⟨store.documents ++ [document],
      Function.update store.index document.id (some store.documents.length)⟩) :=
  if_neg ((Places.not_isSome_iff exact).mpr free)

/-- Adding a document keeps the index exact. -/
theorem Exact.insert (exact : store.Exact) (document : Document) : (store.insert document).2.Exact := by
  by_cases taken : ∃ held ∈ store.documents, held.id = document.id
  · rwa [insert_taken exact taken]
  · push Not at taken
    rw [insert_free exact taken]
    exact Places.concat exact taken

theorem Exact.find?_eq_some (exact : store.Exact) {id : String} :
    store.find? id = some document ↔ document ∈ store.documents ∧ document.id = id :=
  Places.bind_eq_some exact

/-! ## What is observed -/

/-- Documents are split by kind into rules and threats, which keep their order. -/
inductive Split : List Document → List Rule → List Threat → Prop
  | nil : Split [] [] []
  | rule {documents : List Document} {rules : List Rule} {threats : List Threat} (content : Rule)
      (others : Split documents rules threats) : Split (.rule content :: documents) (content :: rules) threats
  | threat {documents : List Document} {rules : List Rule} {threats : List Threat} (entry : ThreatEntry)
      (others : Split documents rules threats) :
      Split (.threat entry :: documents) rules (entry.toThreat :: threats)

theorem split_filterMap (documents : List Document) :
    Split documents (documents.filterMap Document.rule?) (documents.filterMap Document.threat?) := by
  induction documents with
  | nil => exact .nil
  | cons document rest ih =>
    cases document with
    | rule content => exact ih.rule content
    | threat entry => exact ih.threat entry

/-- What is observed, now and of the next insertion, where some documents are held in the order of their adding. -/
structure Shows (store : Indexed) (held : List Document) : Prop where
  documents : store.documents = held
  distinct : (held.map Document.id).Nodup
  found : ∀ id document, store.find? id = some document ↔ document ∈ held ∧ document.id = id
  /-- The index gives the place of each document, and no other. -/
  placed : ∀ id place, store.index id = some place ↔ ∃ document, held[place]? = some document ∧ document.id = id
  split : Split held store.rules store.threats
  accepted : ∀ document, (∀ other ∈ held, other.id ≠ document.id) →
    ∃ next, store.insert document = (.ok (), next) ∧ next.documents = held ++ [document]
  /-- A document whose id is taken is refused by an error of validation, and changes nothing. -/
  refused : ∀ document, (∃ other ∈ held, other.id = document.id) →
    ∃ error reason, store.insert document = (.error error, store) ∧ error.message = "Validation error: " ++ reason

theorem message_duplicateId (id : String) :
    (LoadError.duplicateId id).message = "Validation error: " ++ ("duplicate document id '" ++ id ++ "'") := by
  have start : "Validation error: duplicate document id '" = "Validation error: " ++ "duplicate document id '" := by
    decide
  calc (LoadError.duplicateId id).message = "Validation error: duplicate document id '" ++ id ++ "'" := rfl
    _ = _ := by simp only [start, String.append_assoc]

theorem Exact.shows (exact : store.Exact) : store.Shows store.documents where
  documents := rfl
  distinct := Places.nodup exact
  found _ _ := exact.find?_eq_some
  placed := exact
  split := split_filterMap store.documents
  accepted _ free := ⟨_, insert_free exact free, rfl⟩
  refused document taken := ⟨_, _, insert_taken exact taken, message_duplicateId document.id⟩

theorem documents_insert (store : Indexed) (document : Document) :
    (store.insert document).2.documents =
      store.documents ++ ((store.insert document).1.toOption.map fun _ => document).toList := by
  unfold insert
  split
  · exact (List.append_nil _).symm
  · rfl

/-- The documents behind some attempts are those before them and those that were added, in order. -/
theorem documents_addEach (store : Indexed) (tried : List Document) :
    (addEach insert store tried).2.documents =
      store.documents ++ added tried (addEach insert store tried).1 := by
  induction tried generalizing store with
  | nil => exact (List.append_nil _).symm
  | cons document rest ih =>
    simp only [Catalog.addEach, ih, documents_insert, List.append_assoc]
    cases (store.insert document).1 <;> rfl

theorem Exact.addEach (exact : store.Exact) (tried : List Document) :
    (addEach Indexed.insert store tried).2.Exact := by
  induction tried generalizing store with
  | nil => exact exact
  | cons document rest ih => exact ih (exact.insert document)

/-! ## The catalog behind the index -/

/-- The index stands for a catalog of the same documents. -/
def Represents (store : Indexed) (catalog : Catalog) : Prop :=
  store.Exact ∧ store.documents = catalog.documents

theorem alike_insert : Alike insert Catalog.add Represents := by
  rintro store catalog document ⟨exact, same⟩
  by_cases taken : ∃ held ∈ store.documents, held.id = document.id
  · have refused : catalog.insert document = .error (.duplicateId document.id) :=
      dif_pos (by simpa [← same] using taken)
    rw [insert_taken exact taken, Catalog.add, refused]
    exact ⟨rfl, exact, same⟩
  · have kept := exact.insert document
    obtain ⟨next, inserted, grown⟩ : ∃ next, catalog.insert document = .ok next ∧
        next.documents = catalog.documents ++ [document] := ⟨_, dif_neg (by simpa [← same] using taken), rfl⟩
    push Not at taken
    rw [insert_free exact taken] at kept ⊢
    rw [Catalog.add, inserted]
    exact ⟨rfl, kept, by rw [grown, same]⟩

theorem Represents.find?_eq {catalog : Catalog} (represents : store.Represents catalog) (id : String) :
    store.find? id = catalog.find? id := by
  obtain ⟨exact, same⟩ := represents
  ext document
  rw [exact.find?_eq_some, Catalog.find?, find?_key catalog.nodup, same]

/-- Calls are answered from the index as the catalog answers them, and leave the same behind. At every point within
them the documents are those that were added up to there, in order, and the index gives their places. -/
theorem answers_indexed (calls : List Call) :
    (answers (perform insert) empty calls).1 = (answers Catalog.answer Catalog.empty calls).1 ∧
    (answers (perform insert) empty calls).2 = (addEach insert empty (calls.flatMap Call.attempts)).2 ∧
    (∀ id, (answers (perform insert) empty calls).2.find? id =
      (answers Catalog.answer Catalog.empty calls).2.find? id) ∧
    (answers (perform insert) empty calls).2.documents = (answers Catalog.answer Catalog.empty calls).2.documents ∧
    ∀ point,
      let tried := (calls.flatMap Call.attempts).take point
      let run := addEach insert empty tried
      run.2.Shows (added tried run.1) := by
  have start : empty.Represents Catalog.empty := ⟨exact_empty, rfl⟩
  have run := answers_alike alike_insert start calls
  rw [perform_add] at run
  obtain ⟨sameAnswers, represents⟩ := run
  refine ⟨sameAnswers, answers_kept calls, represents.find?_eq, represents.2, fun point => ?_⟩
  have shows := (exact_empty.addEach ((calls.flatMap Call.attempts).take point)).shows
  rwa [documents_addEach] at shows

end Indexed
end ThreatModel.Catalog
