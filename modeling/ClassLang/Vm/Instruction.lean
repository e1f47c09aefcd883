import ClassLang.Vocabulary

/-!
Instructions of the stack machine, and their text.
-/

namespace ClassLang.Vm

inductive Segment where
  | constant
  | argument
  | local
  | static
  | this
  | that
  | pointer
  | temp
  deriving DecidableEq, Repr

def Segment.word : Segment → String
  | .constant => "constant"
  | .argument => "argument"
  | .local => "local"
  | .static => "static"
  | .this => "this"
  | .that => "that"
  | .pointer => "pointer"
  | .temp => "temp"

/-- The segment that holds the variables of a storage. -/
def Segment.ofStorage : Storage → Segment
  | .static => .static
  | .field => .this
  | .argument => .argument
  | .local => .local

inductive Operation where
  | add
  | sub
  | neg
  | eq
  | gt
  | lt
  | and
  | or
  | not
  deriving DecidableEq, Repr

def Operation.word : Operation → String
  | .add => "add"
  | .sub => "sub"
  | .neg => "neg"
  | .eq => "eq"
  | .gt => "gt"
  | .lt => "lt"
  | .and => "and"
  | .or => "or"
  | .not => "not"

inductive Instruction where
  | push (segment : Segment) (index : Nat)
  | pop (segment : Segment) (index : Nat)
  | operate (operation : Operation)
  | label (name : String)
  | goto (name : String)
  | ifGoto (name : String)
  | call (name : String) (arguments : Nat)
  | function (name : String) (locals : Nat)
  | return
  deriving DecidableEq, Repr

namespace Instruction

/-- Push the object that a constructor or method works on. -/
def pushThis : Instruction := .push .pointer 0

def text : Instruction → String
  | .push segment index => "push " ++ segment.word ++ " " ++ toString index
  | .pop segment index => "pop " ++ segment.word ++ " " ++ toString index
  | .operate operation => operation.word
  | .label name => "label " ++ name
  | .goto name => "goto " ++ name
  | .ifGoto name => "if-goto " ++ name
  | .call name arguments => "call " ++ name ++ " " ++ toString arguments
  | .function name locals => "function " ++ name ++ " " ++ toString locals
  | .return => "return"

end Instruction

/-- The text of a program: each instruction on a line of its own. -/
def render (code : List Instruction) : String :=
  String.join (code.map fun instruction => instruction.text ++ "\n")

@[simp] theorem render_nil : render [] = "" := rfl

@[simp] theorem render_cons (instruction : Instruction) (code : List Instruction) :
    render (instruction :: code) = instruction.text ++ "\n" ++ render code := by
  simp [render]

end ClassLang.Vm
