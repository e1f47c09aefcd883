import ClassLang.Code.Expression
import ClassLang.Tree.Statement

/-!
Code for statements. Every `if` and every `while` of a subroutine has labels of its own,
numbered in the order in which the statements start.
-/

namespace ClassLang

open Vm

/-- The numbers that the next `if` and the next `while` get. -/
structure Labels where
  nextIf : Nat := 0
  nextWhile : Nat := 0
  deriving DecidableEq, Repr

namespace Statement

mutual

def code (frame : Frame) :
    Statement → Labels → Except CompileError (List Instruction × Labels)
  | .let name none value, labels => do
      let (segment, place) ← frame.resolve name
      let valueCode ← Expression.code frame value
      return (valueCode ++ [.pop segment place], labels)
  | .let name (some index) value, labels => do
      let (segment, place) ← frame.resolve name
      let indexCode ← Expression.code frame index
      let valueCode ← Expression.code frame value
      -- The value may itself read an array, so it is put aside before `that` is set.
      return (.push segment place :: indexCode ++ [.operate .add] ++ valueCode ++
        [.pop .temp 0, .pop .pointer 1, .push .temp 0, .pop .that 0], labels)
  | .if condition thenBranch elseBranch, labels => do
      let number := toString labels.nextIf
      let conditionCode ← Expression.code frame condition
      let (thenCode, labels) ←
        codeAll frame thenBranch { labels with nextIf := labels.nextIf + 1 }
      let (elseCode, labels) ← codeAll frame elseBranch labels
      return (conditionCode ++
        [.ifGoto ("IF_TRUE" ++ number), .goto ("IF_FALSE" ++ number),
          .label ("IF_TRUE" ++ number)] ++ thenCode ++
        [.goto ("IF_END" ++ number), .label ("IF_FALSE" ++ number)] ++ elseCode ++
        [.label ("IF_END" ++ number)], labels)
  | .while condition body, labels => do
      let number := toString labels.nextWhile
      let conditionCode ← Expression.code frame condition
      let (bodyCode, labels) ←
        codeAll frame body { labels with nextWhile := labels.nextWhile + 1 }
      return (.label ("WHILE_EXP" ++ number) :: conditionCode ++
        [.operate .not, .ifGoto ("WHILE_END" ++ number)] ++ bodyCode ++
        [.goto ("WHILE_EXP" ++ number), .label ("WHILE_END" ++ number)], labels)
  | .do call, labels => do
      let callCode ← call.code frame
      return (callCode ++ [.pop .temp 0], labels)
  | .return none, labels => .ok ([.push .constant 0, .return], labels)
  | .return (some value), labels => do
      let valueCode ← Expression.code frame value
      return (valueCode ++ [.return], labels)

def codeAll (frame : Frame) :
    List Statement → Labels → Except CompileError (List Instruction × Labels)
  | [], labels => .ok ([], labels)
  | first :: rest, labels => do
      let (firstCode, labels) ← first.code frame labels
      let (restCode, labels) ← codeAll frame rest labels
      return (firstCode ++ restCode, labels)

end

end Statement

end ClassLang
