import ClassLang.Code.Statement

/-!
Code for subroutines and classes.
-/

namespace ClassLang

open Vm

/-- What a subroutine does before its body: a constructor makes room for the fields of a new
object, and a method takes its receiver from its first argument. -/
def SubroutineKind.entryCode (fields : Nat) : SubroutineKind → List Instruction
  | .constructor => [.push .constant fields, .call Library.allocate 1, .pop .pointer 0]
  | .method => [.push .argument 0, .pop .pointer 0]
  | .function => []

/-- What the body of a subroutine is compiled in. -/
def Subroutine.frame (subroutine : Subroutine) (className : String)
    (signatures : SignatureTable) (members own : SymbolTable) : Frame where
  className := className
  subroutine := qualifiedName className subroutine.name
  kind := subroutine.kind
  scope := ⟨members, own⟩
  signatures := signatures

def Subroutine.code (className : String) (members : SymbolTable) (signatures : SignatureTable)
    (subroutine : Subroutine) : Except (Halt CompileError) (List Instruction) := do
  let own ← SymbolTable.ofSubroutine className subroutine
  let frame := subroutine.frame className signatures members own
  let (bodyCode, _) ← Halt.onError (Statement.codeAll frame subroutine.body {})
  return .function frame.subroutine (own.count .local) ::
    subroutine.kind.entryCode (members.count .field) ++ bodyCode

/-- The code of a class, subroutine by subroutine. -/
def Class.code (cls : Class) (signatures : SignatureTable) :
    Except (Halt CompileError) (List Instruction) := do
  let members ← SymbolTable.ofClass cls
  let blocks ← cls.subroutines.mapM (Subroutine.code cls.name members signatures)
  return blocks.flatten

end ClassLang
