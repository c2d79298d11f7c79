import ThreatModel.Catalog
import ThreatModel.FileTree

/-!
# Loading a directory of documents

The YAML files of a directory are loaded in the order of their paths. A file that cannot be loaded is
reported and changes nothing.
-/

namespace ThreatModel

/-- Why a file is not looked at. -/
inductive SkipReason
  | hidden
  | notYaml
  deriving DecidableEq, Repr

def SkipReason.text : SkipReason → String
  | hidden => "dotfile"
  | notYaml => "not a YAML file"

/-- What became of a file. -/
inductive LoadStatus
  | loaded (id : String) (kind : DocumentKind)
  | skipped (reason : SkipReason)
  | failed (error : LoadError)
  deriving DecidableEq, Repr

def LoadStatus.isFailed : LoadStatus → Bool
  | failed _ => true
  | _ => false

/-- A file, by the names that lead to it, and what became of it. -/
structure LoadResult where
  path : List String
  status : LoadStatus
  deriving DecidableEq, Repr

/-- What follows the last point of a name. -/
def extension? (name : String) : Option String :=
  match (name.toList.splitOn '.').reverse with
  | last :: _ :: _ => some (String.ofList last)
  | _ => none

/-- Whether a file of some name is taken for a YAML text. -/
def isYamlName (name : String) : Bool := extension? name = some "yml" || extension? name = some "yaml"

/-- Why a file of some name is not looked at, if it is not. -/
def skipReason? (name : String) : Option SkipReason :=
  if FileTree.isHidden name then some .hidden
  else if isYamlName name then none
  else some .notYaml

namespace Catalog

/-- Reads the bytes of a file as a document. -/
def readBytes (bytes : Option ByteArray) : Except LoadError Document :=
  match bytes.bind String.fromUTF8? with
  | none => .error .io
  | some text => read text

/-- Reads a file and adds its document. -/
def addBytes (catalog : Catalog) (bytes : Option ByteArray) : Except LoadError (Document × Catalog) := do
  let document ← readBytes bytes
  let catalog ← catalog.insert document
  return (document, catalog)

/-- Loads one file, if it is to be looked at. -/
def loadFile (catalog : Catalog) (entry : FileTree.Entry) : LoadStatus × Catalog :=
  match skipReason? (entry.path.getLastD "") with
  | some reason => (.skipped reason, catalog)
  | none =>
    match catalog.addBytes entry.bytes with
    | .ok (document, catalog) => (.loaded document.id document.kind, catalog)
    | .error error => (.failed error, catalog)

/-- Loads files in order. -/
def loadFiles (catalog : Catalog) : List FileTree.Entry → List LoadResult × Catalog
  | [] => ([], catalog)
  | entry :: rest =>
    let (status, catalog) := catalog.loadFile entry
    let (results, catalog) := loadFiles catalog rest
    (⟨entry.path, status⟩ :: results, catalog)

/-- Loads what was found at a path, which has to be a directory. -/
def loadFrom (catalog : Catalog) (path : String) (found : Option FileTree) :
    Except LoadError (List LoadResult × Catalog) :=
  match found with
  | some (.directory entries) => .ok (catalog.loadFiles (FileTree.directory entries).files)
  | _ => .error (.missingDirectory path)

end Catalog
end ThreatModel
