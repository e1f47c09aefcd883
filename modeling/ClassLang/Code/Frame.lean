import ClassLang.Scope.Library
import ClassLang.Scope.Table
import ClassLang.Vm.Instruction

/-!
What the code of a subroutine depends on besides its body: where its variables live and what is
known of the subroutines it calls.
-/

namespace ClassLang

open Vm

structure Frame where
  className : String
  /-- The qualified name of the subroutine. -/
  subroutine : String
  kind : SubroutineKind
  scope : Scope
  signatures : SignatureTable

namespace Frame

/-- Where a variable lives. The receiver of a method is its first argument, so that the
parameters of a method stand one place further. -/
def location (frame : Frame) (binding : Binding) : Segment × Nat :=
  let shift := if binding.storage = .argument ∧ frame.kind = .method then 1 else 0
  (.ofStorage binding.storage, binding.index + shift)

def resolve (frame : Frame) (name : String) : Except CompileError (Segment × Nat) :=
  match frame.scope.get? name with
  | some binding => .ok (frame.location binding)
  | none => .error (.unresolved name frame.subroutine)

def malformed (frame : Frame) : CompileError :=
  .unexpected "alternating terms and operators"
    ("malformed expression in `" ++ frame.subroutine ++ "`")

/-- Whether a call without receiver reaches a subroutine that takes none. -/
def callsStatic (frame : Frame) (name : String) : Bool :=
  match frame.signatures.get? frame.className name with
  | some signature => signature.kind ≠ .method
  | none => false

/-- The class whose subroutine a call reaches, and the code that pushes the receiver, if the
subroutine gets one. A receiver that is no variable names a class. -/
def target (frame : Frame) (receiver : Option String) (name : String) :
    Except CompileError (String × List Instruction) :=
  match receiver with
  | none => .ok (frame.className, if frame.callsStatic name then [] else [.pushThis])
  | some receiver =>
      match frame.scope.get? receiver with
      | none => .ok (receiver, [])
      | some binding =>
          match binding.type.className? with
          | none => .error (.invalidReceiver receiver binding.type)
          | some className =>
              let (segment, index) := frame.location binding
              .ok (className, [.push segment index])

/-- A call whose subroutine is known must supply as many arguments as it has parameters. -/
def checkArity (frame : Frame) (className name : String) (supplied : Nat) :
    Except CompileError Unit :=
  match frame.signatures.get? className name with
  | none => .ok ()
  | some signature =>
      if signature.parameters = supplied then .ok ()
      else .error (.arity (qualifiedName className name) signature.parameters supplied)

end Frame

end ClassLang
