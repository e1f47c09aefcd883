import ClassLang.Proofs.Declared
import ClassLang.Proofs.Machine
import ClassLang.Scope.Library

/-!
What a subroutine means, said of its syntax tree.

Terms are evaluated from left to right and a flat expression groups to the right. An `if` takes
its first branch for every word but zero, and a `while` goes on only for the word with all bits
set. Only loops can run forever, so the meaning of a statement is given for every bound on the
rounds of a loop.
-/

namespace ClassLang

open Vm

variable {width : Nat}

/-- What the body of a subroutine depends on. -/
structure Context where
  className : String
  binding? : String → Option Binding
  signatures : SignatureTable

/-- The variables that a running subroutine can reach, and the object it works on. -/
structure Store (width : Nat) where
  parameters : Nat → Word width
  locals : Nat → Word width
  object : Word width
  shared : Shared width

/-- Why there is no result: the syntax tree has no meaning, or a loop needs more rounds than it
was given. -/
inductive Interruption where
  | meaningless
  | unfinished
  deriving DecidableEq, Repr

namespace Store

def read (store : Store width) (binding : Binding) : Word width :=
  match binding.storage with
  | .static => store.shared.statics binding.index
  | .field => store.shared.memory (store.object + BitVec.ofNat width binding.index)
  | .argument => store.parameters binding.index
  | .local => store.locals binding.index

def setMemory (store : Store width) (address value : Word width) : Store width :=
  { store with shared :=
      { store.shared with memory := overwrite store.shared.memory address value } }

def write (store : Store width) (binding : Binding) (value : Word width) : Store width :=
  match binding.storage with
  | .static =>
      { store with shared :=
        { store.shared with statics := overwrite store.shared.statics binding.index value } }
  | .field => store.setMemory (store.object + BitVec.ofNat width binding.index) value
  | .argument => { store with parameters := overwrite store.parameters binding.index value }
  | .local => { store with locals := overwrite store.locals binding.index value }

/-- The result of a call, and what it makes of the store. -/
def call (environment : Environment width) (name : String) (arguments : List (Word width))
    (store : Store width) : Word width × Store width :=
  let (result, shared) := environment.call name arguments store.shared
  (result, { store with shared := shared })

end Store

namespace Context

def lookup (context : Context) (name : String) : Except Interruption Binding :=
  match context.binding? name with
  | some binding => .ok binding
  | none => .error .meaningless

/-- The class whose subroutine is called, and the receiver that is handed over, if any. Without
a receiver, the call goes to the own class and to the own object, unless it is known that the
subroutine takes no object. -/
def target (context : Context) (store : Store width) (receiver : Option String) (name : String) :
    Except Interruption (String × List (Word width)) :=
  match receiver with
  | none =>
      match context.signatures.get? context.className name with
      | some ⟨_, .function, _⟩ => .ok (context.className, [])
      | some ⟨_, .constructor, _⟩ => .ok (context.className, [])
      | _ => .ok (context.className, [store.object])
  | some receiver =>
      match context.binding? receiver with
      | none => .ok (receiver, [])
      | some binding =>
          match binding.type with
          | .primitive _ => .error .meaningless
          | .object className => .ok (className, [store.read binding])

end Context

def Constant.meaning (store : Store width) : Constant → Word width
  | .boolean value => truth value
  | .null => 0
  | .this => store.object

def UnaryOp.meaning : UnaryOp → Word width → Word width
  | .negate, operand => -operand
  | .not, operand => ~~~operand

def BinaryOp.meaning (environment : Environment width) (left right : Word width)
    (store : Store width) : BinaryOp → Word width × Store width
  | .add => (left + right, store)
  | .subtract => (left - right, store)
  | .multiply => store.call environment Library.multiply [left, right]
  | .divide => store.call environment Library.divide [left, right]
  | .and => (left &&& right, store)
  | .or => (left ||| right, store)
  | .less => (truth (left.slt right), store)
  | .greater => (truth (right.slt left), store)
  | .equal => (truth (left == right), store)

/-- Append characters to a string object. -/
def appendAll (environment : Environment width) : List Char → Word width × Store width →
    Word width × Store width
  | [], result => result
  | c :: rest, (string, store) =>
      appendAll environment rest
        (store.call environment Library.appendChar [string, BitVec.ofNat width c.toNat])

/-- A string constant is a new object of its length, to which its characters are appended. -/
def stringMeaning (environment : Environment width) (text : String) (store : Store width) :
    Word width × Store width :=
  appendAll environment text.toList
    (store.call environment Library.newString [BitVec.ofNat width text.length])

section

variable (environment : Environment width) (context : Context)

mutual

def Term.eval : Term → Store width → Except Interruption (Word width × Store width)
  | .int value, store => .ok (BitVec.ofNat width value.toNat, store)
  | .string text, store => .ok (stringMeaning environment text store)
  | .constant value, store => .ok (value.meaning store, store)
  | .var name, store => do
      let binding ← context.lookup name
      return (store.read binding, store)
  | .item array index, store => do
      let binding ← context.lookup array
      let (offset, next) ← Expression.eval index store
      return (next.shared.memory (store.read binding + offset), next)
  | .paren inner, store => Expression.eval inner store
  | .unary op operand, store => do
      let (value, store) ← operand.eval store
      return (op.meaning value, store)
  | .call call, store => call.eval store

def Expression.eval :
    List Element → Store width → Except Interruption (Word width × Store width)
  | [.term last], store => last.eval store
  | .term first :: .op op :: rest, store => do
      let (left, store) ← first.eval store
      let (right, store) ← Expression.eval rest store
      return op.meaning environment left right store
  | _, _ => .error .meaningless

def Call.eval : Call → Store width → Except Interruption (Word width × Store width)
  | .mk receiver name arguments, store => do
      let (className, receiver) ← context.target store receiver name
      let (values, store) ← Call.evalArguments arguments store
      return store.call environment (qualifiedName className name) (receiver ++ values)

def Call.evalArguments : List (List Element) → Store width →
    Except Interruption (List (Word width) × Store width)
  | [], store => .ok ([], store)
  | first :: rest, store => do
      let (value, store) ← Expression.eval first store
      let (values, store) ← Call.evalArguments rest store
      return (value :: values, store)

end

end

/-- What has become of a list of statements: they came to their end, or gave a value back. -/
inductive Outcome (width : Nat) where
  | finished (store : Store width)
  | returned (value : Word width) (store : Store width)

/-- Go on with what follows unless a value has been given back. -/
def proceed (result : Except Interruption (Outcome width))
    (next : Store width → Except Interruption (Outcome width)) :
    Except Interruption (Outcome width) :=
  match result with
  | .ok (.finished store) => next store
  | .ok (.returned value store) => .ok (.returned value store)
  | .error interruption => .error interruption

/-- At most so many rounds of a loop. -/
def rounds (condition : Store width → Except Interruption (Word width × Store width))
    (body : Store width → Except Interruption (Outcome width)) :
    Nat → Store width → Except Interruption (Outcome width)
  | 0, _ => .error .unfinished
  | bound + 1, store => do
      let (value, store) ← condition store
      if value = truth true then proceed (body store) (rounds condition body bound)
      else return .finished store

namespace Statement

variable (environment : Environment width) (context : Context) (bound : Nat)

mutual

def exec : Statement → Store width → Except Interruption (Outcome width)
  | .let name none value, store => do
      let binding ← context.lookup name
      let (value, store) ← Expression.eval environment context value store
      return .finished (store.write binding value)
  | .let name (some index) value, store => do
      let binding ← context.lookup name
      let (offset, next) ← Expression.eval environment context index store
      let (value, last) ← Expression.eval environment context value next
      return .finished (last.setMemory (store.read binding + offset) value)
  | .if condition thenBranch elseBranch, store => do
      let (value, store) ← Expression.eval environment context condition store
      if value = 0 then execAll elseBranch store else execAll thenBranch store
  | .while condition body, store =>
      rounds (Expression.eval environment context condition) (fun store => execAll body store)
        bound store
  | .do call, store => do
      let (_, store) ← call.eval environment context store
      return .finished store
  | .return none, store => .ok (.returned 0 store)
  | .return (some value), store => do
      let (value, store) ← Expression.eval environment context value store
      return .returned value store

def execAll : List Statement → Store width → Except Interruption (Outcome width)
  | [], store => .ok (.finished store)
  | first :: rest, store => proceed (first.exec store) (fun store => execAll rest store)

end

end Statement

namespace Subroutine

variable (environment : Environment width) (cls : Class) (signatures : SignatureTable)
  (subroutine : Subroutine)

def context : Context :=
  ⟨cls.name, cls.locate? subroutine, signatures⟩

/-- The store before the body of a subroutine. A constructor makes its object anew, a method
takes it from its first argument, and a function has the one of its caller. -/
def entry (arguments : Nat → Word width) (object : Word width) (shared : Shared width) :
    Store width :=
  match subroutine.kind with
  | .function => ⟨arguments, fun _ => 0, object, shared⟩
  | .method => ⟨fun index => arguments (index + 1), fun _ => 0, arguments 0, shared⟩
  | .constructor =>
      let fields := BitVec.ofNat width (population cls.declarations .field)
      let (object, shared) := environment.call Library.allocate [fields] shared
      ⟨arguments, fun _ => 0, object, shared⟩

def exec (bound : Nat) (store : Store width) : Except Interruption (Outcome width) :=
  Statement.execAll environment (subroutine.context cls signatures) bound subroutine.body store

end Subroutine

/-- What others see of an outcome. -/
def Outcome.ending : Outcome width → Ending width
  | .finished store => .ranOff store.shared
  | .returned value store => .returned value store.shared

end ClassLang
