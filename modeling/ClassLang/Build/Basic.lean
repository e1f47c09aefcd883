import ClassLang.Build.Error
import ClassLang.Code.Class
import ClassLang.Tree.Parser

/-!
Building several units together.

All units are read, then the signatures of all are made known in the order of the units, then
code is generated for each. So a call may reach a subroutine of any unit, and a phase in which a
unit fails ends the build.
-/

namespace ClassLang

open Vm

structure SourceUnit where
  name : String
  text : String
  deriving DecidableEq, Repr

structure CompiledUnit where
  name : String
  code : List Instruction
  deriving DecidableEq, Repr

def CompiledUnit.text (compiled : CompiledUnit) : String := render compiled.code

namespace Build

/-- The signatures of a class, added to those that are known. -/
def register (known : SignatureTable) (cls : Class) : Except CompileError SignatureTable :=
  (known.register cls).result

/-- Put down an error to the unit it comes from. -/
def inUnit {α : Type} (name : String) (result : Except (Halt CompileError) α) :
    Except (Halt BuildError) α :=
  result.mapError (Halt.map (BuildError.unit name))

/-- Read all units. -/
def classes (units : List SourceUnit) : Except (Halt BuildError) (List (String × Class)) :=
  units.mapM fun source => do
    let cls ← inUnit source.name (Halt.onError (Class.parse source.text))
    return (source.name, cls)

/-- The signatures of all classes, and those of the library if it is wanted. -/
def signatures (library : Bool) (named : List (String × Class)) :
    Except (Halt BuildError) SignatureTable := do
  let known ← named.foldlM
    (fun known unit => inUnit unit.1 (Halt.onError (register known unit.2))) {}
  return if library then known.addLibrary else known

def compile (library : Bool) (units : List SourceUnit) :
    Except (Halt BuildError) (List CompiledUnit) := do
  let named ← classes units
  let known ← signatures library named
  named.mapM fun unit => do
    let code ← inUnit unit.1 (unit.2.code known)
    return ⟨unit.1, code⟩

/-- The code of a single unit that knows its own subroutines and the library. -/
def compileSource (text : String) : Except (Halt CompileError) (List Instruction) := do
  let cls ← Halt.onError (Class.parse text)
  let known ← Halt.onError (register {} cls)
  cls.code known.addLibrary

end Build

end ClassLang
