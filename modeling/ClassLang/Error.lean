import ClassLang.Vocabulary

/-!
What can be wrong with a class, how it is put into words, and what else can end a compilation.
-/

namespace ClassLang

inductive CompileError where
  | unexpected (expected found : String)
  | unresolved (name subroutine : String)
  | duplicate (name scope : String)
  | arity (callee : String) (expected found : Nat)
  | invalidReceiver (name : String) (type : DataType)
  deriving DecidableEq, Repr

namespace CompileError

def code : CompileError → Nat
  | .unexpected .. => 1
  | .unresolved .. => 2
  | .duplicate .. => 3
  | .arity .. => 4
  | .invalidReceiver .. => 5

def title : CompileError → String
  | .unexpected .. => "syntax error"
  | .unresolved .. => "unresolved symbol"
  | .duplicate .. => "duplicate declaration"
  | .arity .. => "wrong number of arguments"
  | .invalidReceiver .. => "invalid receiver"

def message : CompileError → String
  | .unexpected expected found => s!"expected {expected}, but found {found}"
  | .unresolved name subroutine => s!"unresolved symbol `{name}` in `{subroutine}`"
  | .duplicate name scope => s!"`{name}` is declared more than once in {scope}"
  | .arity callee expected found =>
      s!"`{callee}` takes {expected} argument(s) but {found} were supplied"
  | .invalidReceiver name type =>
      s!"cannot call a subroutine on `{name}` of primitive type `{type.word}`"

/-- Advice on how to mend the error, where there is any. -/
def help? : CompileError → Option String
  | .unresolved name _ => some s!"declare `{name}` as a field, static, parameter or local"
  | .invalidReceiver name _ => some s!"`{name}` must have a class type to receive a call"
  | _ => none

end CompileError

/-- Why something came to a halt: because of an error, which is reported, or because the indices
of a symbol table ran out. The latter is no fault of what is compiled, and there are no words for
it. -/
inductive Halt (ε : Type) where
  | reported (error : ε)
  | overflow
  deriving DecidableEq, Repr

namespace Halt

variable {ε δ α : Type}

def map (change : ε → δ) : Halt ε → Halt δ
  | .reported error => .reported (change error)
  | .overflow => .overflow

/-- It is the report of an error of this kind. -/
def Reports (kind : ε → Prop) : Halt ε → Prop
  | .reported error => kind error
  | .overflow => False

/-- Any error of this step brings everything to a halt. -/
def onError : Except ε α → Except (Halt ε) α
  | .ok value => .ok value
  | .error error => .error (.reported error)

theorem onError_eq_ok_iff {result : Except ε α} {value : α} :
    onError result = .ok value ↔ result = .ok value := by
  cases result <;> simp [onError]

theorem onError_eq_error_iff {result : Except ε α} {halt : Halt ε} :
    onError result = .error halt ↔ ∃ error, result = .error error ∧ halt = .reported error := by
  cases result <;> simp [onError, eq_comm]

end Halt

end ClassLang
