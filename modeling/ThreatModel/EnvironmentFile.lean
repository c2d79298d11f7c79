import ThreatModel.EnvironmentFile.Assignment
import ThreatModel.EnvironmentFile.Line

/-!
# Environment files

A file with an assignment a line gives values to variables that have none. Later assignments may use the values
of earlier ones. The first fault ends the reading, and what stands before it counts.
-/

namespace ThreatModel.EnvironmentFile

/-- The lines of a file, each with the line break that ends it. -/
def linesOf (begun : List UInt8) : List UInt8 → List (List UInt8)
  | [] => if begun.isEmpty then [] else [begun.reverse]
  | byte :: rest =>
    if byte = 10 then (byte :: begun).reverse :: linesOf [] rest else linesOf (byte :: begun) rest

/-- The bytes of a file without the mark of its encoding. -/
def withoutMark : List UInt8 → List UInt8
  | 0xEF :: 0xBB :: 0xBF :: rest => rest
  | bytes => bytes

/-- The characters of a line; none if its bytes are no text. -/
def lineText (line : List UInt8) : Option (List Char) :=
  (String.fromUTF8? (ByteArray.mk line.toArray)).map String.toList

/-- Carries out assignments up to the first fault. -/
def assign (environment : Environment) : List (Option (List Char)) → Environment
  | [] | none :: _ => environment
  | some text :: rest =>
    match readAssignment environment text with
    | .nothing => assign environment rest
    | .assignment name value => assign (environment.define name value) rest
    | .malformed => environment

/-- The environment after the assignments of a file. -/
def load (environment : Environment) (bytes : ByteArray) : Environment :=
  assign environment (assignments [] .nothing ((linesOf [] (withoutMark bytes.toList)).map lineText))

end ThreatModel.EnvironmentFile
