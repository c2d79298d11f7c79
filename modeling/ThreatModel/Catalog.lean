import ThreatModel.Document
import ThreatModel.Text.Blank

/-!
# Catalogs

A catalog holds documents with different ids, in the order in which they were added. The rules and threats
of a scan come from one catalog.
-/

namespace ThreatModel

/-- Why documents cannot be loaded. -/
inductive LoadError
  /-- A file cannot be read. -/
  | io
  /-- A text does not read as a document of any kind. -/
  | unreadable (fault : Fault)
  | emptyId
  /-- A document does not read as one of its kind. -/
  | unfit (id : String) (fault : Fault)
  | duplicateId (id : String)
  | missingDirectory (path : String)
  deriving DecidableEq, Repr

def LoadError.message : LoadError → String
  | io => "IO error: other"
  | unreadable fault => s!"YAML parse error: {fault.message}"
  | emptyId => "Validation error: metadata.id must not be empty"
  | unfit id fault => s!"Validation error: failed to parse '{id}': {fault.message}"
  | duplicateId id => s!"Validation error: duplicate document id '{id}'"
  | missingDirectory path => s!"Validation error: rules directory '{path}' does not exist"

/-- Documents with different ids. -/
structure Catalog where
  documents : List Document
  nodup : (documents.map Document.id).Nodup

namespace Catalog

/-- The catalog without documents. -/
def empty : Catalog := ⟨[], by simp⟩

instance : Inhabited Catalog := ⟨empty⟩

/-- The document of an id. -/
def find? (catalog : Catalog) (id : String) : Option Document :=
  catalog.documents.find? (·.id = id)

/-- Adds a document behind the others, unless its id is taken. -/
def insert (catalog : Catalog) (document : Document) : Except LoadError Catalog :=
  if taken : document.id ∈ catalog.documents.map Document.id then .error (.duplicateId document.id)
  else .ok ⟨catalog.documents ++ [document], by
    simp only [List.map_append, List.map_cons, List.map_nil]
    exact List.nodup_append.2 ⟨catalog.nodup, by simp, by
      intro id mem other last
      simp only [List.mem_singleton] at last
      rintro rfl
      exact taken (last ▸ mem)⟩⟩

/-- The rules of the catalog, enabled or not. -/
def rules (catalog : Catalog) : List Rule := catalog.documents.filterMap Document.rule?

/-- The threats of the catalog. -/
def threats (catalog : Catalog) : List Threat := catalog.documents.filterMap Document.threat?

/-- Reads the text of a file as a document. Its id must not be blank. -/
def read (text : String) : Except LoadError Document :=
  match Envelope.ofText text with
  | .error fault => .error (.unreadable fault)
  | .ok envelope =>
    if Text.isVacant envelope.header.id then .error .emptyId
    else match envelope.document with
      | .error fault => .error (.unfit envelope.header.id fault)
      | .ok document => .ok document

end Catalog
end ThreatModel
