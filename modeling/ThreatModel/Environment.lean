/-!
# Environments

The variables that a program is given, with their values.
-/

namespace ThreatModel

/-- Variables and their values. Of several variables with one name the first counts. -/
structure Environment where
  bindings : List (String × String)

namespace Environment

/-- The value of a variable. -/
def get? (environment : Environment) (name : String) : Option String := environment.bindings.lookup name

/-- The value of a variable, unless it is empty. -/
def nonempty? (environment : Environment) (name : String) : Option String :=
  (environment.get? name).filter (!·.isEmpty)

/-- Gives a value to a variable that has none yet. -/
def define (environment : Environment) (name value : String) : Environment :=
  match environment.get? name with
  | some _ => environment
  | none => ⟨(name, value) :: environment.bindings⟩

/-! ## Environments of processes -/

/-- A variable from its name, an equals sign and its value. -/
def ofAssignment? (text : String) : Option (String × String) :=
  match text.toList.span (· ≠ '=') with
  | ([], _) | (_, []) => none
  | (name, _ :: value) => some (String.ofList name, String.ofList value)

/-- The parts of a sequence of bytes that end at zeros; `begun` are those of the first part, the last one
first. -/
def blocks (begun : List UInt8) : List UInt8 → List (List UInt8)
  | [] => if begun.isEmpty then [] else [begun.reverse]
  | byte :: rest => if byte = 0 then begun.reverse :: blocks [] rest else blocks (byte :: begun) rest

/-- The environment whose assignments end at zeros. One that is no text is left out. -/
def ofBytes (bytes : ByteArray) : Environment :=
  ⟨(blocks [] bytes.toList).filterMap fun block =>
    (String.fromUTF8? (ByteArray.mk block.toArray)).bind ofAssignment?⟩

end Environment
end ThreatModel
