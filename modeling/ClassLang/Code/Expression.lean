import ClassLang.Code.Frame

/-!
Code for terms, calls and expressions.

The code of an expression leaves its value on the stack. Operators have no precedence and group
to the right, so all terms are pushed in order and the operators follow, last to first.
-/

namespace ClassLang

open Vm

def UnaryOp.operation : UnaryOp → Operation
  | .negate => .neg
  | .not => .not

def BinaryOp.code : BinaryOp → Instruction
  | .add => .operate .add
  | .subtract => .operate .sub
  | .multiply => .call Library.multiply 2
  | .divide => .call Library.divide 2
  | .and => .operate .and
  | .or => .operate .or
  | .less => .operate .lt
  | .greater => .operate .gt
  | .equal => .operate .eq

def Constant.code : Constant → List Instruction
  | .boolean true => [.push .constant 0, .operate .not]
  | .boolean false => [.push .constant 0]
  | .null => [.push .constant 0]
  | .this => [.pushThis]

/-- A string is built anew, character by character. Its length has thirty-two bits. -/
def stringCode (text : String) : List Instruction :=
  .push .constant text.length.toUInt32.toNat :: .call Library.newString 1 ::
    text.toList.flatMap fun c => [.push .constant c.toNat, .call Library.appendChar 2]

mutual

def Term.code (frame : Frame) : Term → Except CompileError (List Instruction)
  | .int value => .ok [.push .constant value.toNat]
  | .string text => .ok (stringCode text)
  | .constant value => .ok value.code
  | .var name => do
      let (segment, place) ← frame.resolve name
      return [.push segment place]
  | .item array index => do
      let (segment, place) ← frame.resolve array
      let indexCode ← Expression.code frame index
      return .push segment place :: indexCode ++
        [.operate .add, .pop .pointer 1, .push .that 0]
  | .paren inner => Expression.code frame inner
  | .unary op operand => do
      let operandCode ← operand.code frame
      return operandCode ++ [.operate op.operation]
  | .call call => call.code frame

def Expression.code (frame : Frame) : List Element → Except CompileError (List Instruction)
  | [] => .error (.unexpected "expression" "nothing")
  | .op _ :: _ => .error frame.malformed
  | .term first :: rest => do
      let firstCode ← first.code frame
      let restCode ← Expression.operationsCode frame rest []
      return firstCode ++ restCode

/-- The terms behind the first one, and then the operators, of which the last to come are the
first in `pending`. -/
def Expression.operationsCode (frame : Frame) :
    List Element → (pending : List BinaryOp) → Except CompileError (List Instruction)
  | [], pending => .ok (pending.map BinaryOp.code)
  | .op op :: .term operand :: rest, pending => do
      let operandCode ← operand.code frame
      let restCode ← Expression.operationsCode frame rest (op :: pending)
      return operandCode ++ restCode
  | _, _ => .error frame.malformed

def Call.code (frame : Frame) : Call → Except CompileError (List Instruction)
  | .mk receiver name arguments => do
      let (className, receiverCode) ← frame.target receiver name
      frame.checkArity className name arguments.length
      let argumentsCode ← Call.argumentsCode frame arguments
      return receiverCode ++ argumentsCode ++
        [.call (qualifiedName className name) (receiverCode.length + arguments.length)]

def Call.argumentsCode (frame : Frame) :
    List (List Element) → Except CompileError (List Instruction)
  | [] => .ok []
  | first :: rest => do
      let firstCode ← Expression.code frame first
      let restCode ← Call.argumentsCode frame rest
      return firstCode ++ restCode

end

end ClassLang
