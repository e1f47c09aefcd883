import ClassLang.Code.Class
import ClassLang.Proofs.Results

/-!
What the code of an expression or a statement is made of, once there is code at all.
-/

namespace ClassLang

open Vm

namespace Expression

variable {frame : Frame} {emitted : List Instruction}

/-- The operators that wait come after everything else. -/
theorem operationsCode_pending (frame : Frame) : (elements : List Element) →
    (pending : List BinaryOp) →
    operationsCode frame elements pending =
      (operationsCode frame elements []).map (· ++ pending.map BinaryOp.code)
  | [], pending => by simp [operationsCode, Except.map]
  | .op op :: .term operand :: rest, pending => by
      rw [operationsCode, operationsCode, operationsCode_pending frame rest (op :: pending),
        operationsCode_pending frame rest [op]]
      cases operand.code frame with
      | error error => rfl
      | ok operandCode =>
          cases operationsCode frame rest [] with
          | error error => rfl
          | ok restCode => simp [Except.map]
  | [.op _], _ => by simp [operationsCode, Except.map]
  | .op _ :: .op _ :: _, _ => by simp [operationsCode, Except.map]
  | .term _ :: _, _ => by simp [operationsCode, Except.map]

theorem code_singleton (frame : Frame) (term : Term) :
    code frame [.term term] = term.code frame := by
  rw [code, operationsCode]
  cases term.code frame with
  | error error => rfl
  | ok termCode => simp

/-- The operator that was put aside first comes last. -/
theorem code_operation_term (frame : Frame) (first second : Term) (op : BinaryOp)
    (rest : List Element) :
    code frame (.term first :: .op op :: .term second :: rest) = do
      let firstCode ← first.code frame
      let restCode ← code frame (.term second :: rest)
      return firstCode ++ restCode ++ [op.code] := by
  rw [code, code, operationsCode, operationsCode_pending frame rest [op]]
  cases first.code frame with
  | error error => rfl
  | ok firstCode =>
      cases second.code frame with
      | error error => rfl
      | ok secondCode =>
          cases operationsCode frame rest [] with
          | error error => rfl
          | ok restCode => simp [Except.map]

/-- The code of an expression groups to the right: the first term, the rest of the expression,
and the operator between them. -/
theorem code_operation {first : Term} {op : BinaryOp} {rest : List Element}
    (generated : Expression.code frame (.term first :: .op op :: rest) = .ok emitted) :
    ∃ firstCode restCode, first.code frame = .ok firstCode ∧
      Expression.code frame rest = .ok restCode ∧
      emitted = firstCode ++ restCode ++ [op.code] := by
  match rest with
  | [] => simp [Expression.code, operationsCode, bind_eq_ok_iff] at generated
  | .op _ :: _ => simp [Expression.code, operationsCode, bind_eq_ok_iff] at generated
  | .term second :: rest =>
      rw [code_operation_term] at generated
      obtain ⟨firstCode, firstGenerated, generated⟩ := bind_eq_ok_iff.mp generated
      obtain ⟨restCode, restGenerated, generated⟩ := bind_eq_ok_iff.mp generated
      cases generated
      exact ⟨firstCode, restCode, firstGenerated, restGenerated, rfl⟩

/-- Only terms and operators in turn have code. -/
theorem code_cases {elements : List Element}
    (generated : Expression.code frame elements = .ok emitted) :
    (∃ term, elements = [.term term]) ∨
      ∃ first op rest, elements = .term first :: .op op :: rest := by
  match elements with
  | [] => simp [Expression.code] at generated
  | .op _ :: _ => simp [Expression.code] at generated
  | [.term term] => exact .inl ⟨term, rfl⟩
  | .term first :: .op op :: rest => exact .inr ⟨first, op, rest, rfl⟩
  | .term first :: .term second :: rest =>
      rw [Expression.code] at generated
      obtain ⟨firstCode, -, generated⟩ := bind_eq_ok_iff.mp generated
      simp [operationsCode] at generated

end Expression

namespace Term

variable {frame : Frame} {emitted : List Instruction}

theorem code_var {name : String} (generated : (Term.var name).code frame = .ok emitted) :
    ∃ segment place, frame.resolve name = .ok (segment, place) ∧
      emitted = [.push segment place] := by
  rw [Term.code] at generated
  obtain ⟨⟨segment, place⟩, resolved, generated⟩ := bind_eq_ok_iff.mp generated
  cases generated
  exact ⟨segment, place, resolved, rfl⟩

theorem code_item {array : String} {index : List Element}
    (generated : (Term.item array index).code frame = .ok emitted) :
    ∃ segment place indexCode, frame.resolve array = .ok (segment, place) ∧
      Expression.code frame index = .ok indexCode ∧
      emitted = .push segment place :: indexCode ++
        [.operate .add, .pop .pointer 1, .push .that 0] := by
  rw [Term.code] at generated
  obtain ⟨⟨segment, place⟩, resolved, generated⟩ := bind_eq_ok_iff.mp generated
  obtain ⟨indexCode, indexGenerated, generated⟩ := bind_eq_ok_iff.mp generated
  cases generated
  exact ⟨segment, place, indexCode, resolved, indexGenerated, rfl⟩

theorem code_unary {op : UnaryOp} {operand : Term}
    (generated : (Term.unary op operand).code frame = .ok emitted) :
    ∃ operandCode, operand.code frame = .ok operandCode ∧
      emitted = operandCode ++ [.operate op.operation] := by
  rw [Term.code] at generated
  obtain ⟨operandCode, operandGenerated, generated⟩ := bind_eq_ok_iff.mp generated
  cases generated
  exact ⟨operandCode, operandGenerated, rfl⟩

end Term

namespace Call

variable {frame : Frame} {emitted : List Instruction}

/-- The receiver if there is one, the arguments, and the instruction that calls. -/
theorem code_mk {receiver : Option String} {name : String} {arguments : List (List Element)}
    (generated : (Call.mk receiver name arguments).code frame = .ok emitted) :
    ∃ className receiverCode suppliedCode,
      frame.target receiver name = .ok (className, receiverCode) ∧
      frame.checkArity className name arguments.length = .ok () ∧
      argumentsCode frame arguments = .ok suppliedCode ∧
      emitted = receiverCode ++ suppliedCode ++
        [.call (qualifiedName className name) (receiverCode.length + arguments.length)] := by
  rw [Call.code] at generated
  obtain ⟨⟨className, receiverCode⟩, targeted, generated⟩ := bind_eq_ok_iff.mp generated
  obtain ⟨⟨⟩, checked, generated⟩ := bind_eq_ok_iff.mp generated
  obtain ⟨suppliedCode, supplied, generated⟩ := bind_eq_ok_iff.mp generated
  cases generated
  exact ⟨className, receiverCode, suppliedCode, targeted, checked, supplied, rfl⟩

theorem argumentsCode_cons {first : List Element} {rest : List (List Element)}
    (generated : argumentsCode frame (first :: rest) = .ok emitted) :
    ∃ firstCode restCode, Expression.code frame first = .ok firstCode ∧
      argumentsCode frame rest = .ok restCode ∧ emitted = firstCode ++ restCode := by
  rw [argumentsCode] at generated
  obtain ⟨firstCode, firstGenerated, generated⟩ := bind_eq_ok_iff.mp generated
  obtain ⟨restCode, restGenerated, generated⟩ := bind_eq_ok_iff.mp generated
  cases generated
  exact ⟨firstCode, restCode, firstGenerated, restGenerated, rfl⟩

end Call

namespace Statement

variable {frame : Frame} {emitted : List Instruction} {labels after : Labels}

theorem code_let {name : String} {value : Expression}
    (generated : Statement.code frame (.let name none value) labels = .ok (emitted, after)) :
    ∃ segment place valueCode, frame.resolve name = .ok (segment, place) ∧
      Expression.code frame value = .ok valueCode ∧
      emitted = valueCode ++ [.pop segment place] ∧ after = labels := by
  rw [Statement.code] at generated
  obtain ⟨⟨segment, place⟩, resolved, generated⟩ := bind_eq_ok_iff.mp generated
  obtain ⟨valueCode, valueGenerated, generated⟩ := bind_eq_ok_iff.mp generated
  cases generated
  exact ⟨segment, place, valueCode, resolved, valueGenerated, rfl, rfl⟩

theorem code_letItem {name : String} {index value : Expression}
    (generated : Statement.code frame (.let name (some index) value) labels =
      .ok (emitted, after)) :
    ∃ segment place indexCode valueCode, frame.resolve name = .ok (segment, place) ∧
      Expression.code frame index = .ok indexCode ∧
      Expression.code frame value = .ok valueCode ∧
      emitted = .push segment place :: indexCode ++ [.operate .add] ++ valueCode ++
        [.pop .temp 0, .pop .pointer 1, .push .temp 0, .pop .that 0] ∧ after = labels := by
  rw [Statement.code] at generated
  obtain ⟨⟨segment, place⟩, resolved, generated⟩ := bind_eq_ok_iff.mp generated
  obtain ⟨indexCode, indexGenerated, generated⟩ := bind_eq_ok_iff.mp generated
  obtain ⟨valueCode, valueGenerated, generated⟩ := bind_eq_ok_iff.mp generated
  cases generated
  exact ⟨segment, place, indexCode, valueCode, resolved, indexGenerated, valueGenerated, rfl,
    rfl⟩

theorem code_if {condition : Expression} {thenBranch elseBranch : List Statement}
    (generated : Statement.code frame (.if condition thenBranch elseBranch) labels =
      .ok (emitted, after)) :
    ∃ conditionCode thenCode middle elseCode,
      Expression.code frame condition = .ok conditionCode ∧
      codeAll frame thenBranch { labels with nextIf := labels.nextIf + 1 } =
        .ok (thenCode, middle) ∧
      codeAll frame elseBranch middle = .ok (elseCode, after) ∧
      emitted = conditionCode ++
        [.ifGoto ("IF_TRUE" ++ toString labels.nextIf),
          .goto ("IF_FALSE" ++ toString labels.nextIf),
          .label ("IF_TRUE" ++ toString labels.nextIf)] ++ thenCode ++
        [.goto ("IF_END" ++ toString labels.nextIf),
          .label ("IF_FALSE" ++ toString labels.nextIf)] ++ elseCode ++
        [.label ("IF_END" ++ toString labels.nextIf)] := by
  rw [Statement.code] at generated
  obtain ⟨conditionCode, conditionGenerated, generated⟩ := bind_eq_ok_iff.mp generated
  obtain ⟨⟨thenCode, middle⟩, thenGenerated, generated⟩ := bind_eq_ok_iff.mp generated
  obtain ⟨⟨elseCode, last⟩, elseGenerated, generated⟩ := bind_eq_ok_iff.mp generated
  cases generated
  exact ⟨conditionCode, thenCode, middle, elseCode, conditionGenerated, thenGenerated,
    elseGenerated, rfl⟩

theorem code_while {condition : Expression} {body : List Statement}
    (generated : Statement.code frame (.while condition body) labels = .ok (emitted, after)) :
    ∃ conditionCode bodyCode, Expression.code frame condition = .ok conditionCode ∧
      codeAll frame body { labels with nextWhile := labels.nextWhile + 1 } =
        .ok (bodyCode, after) ∧
      emitted = .label ("WHILE_EXP" ++ toString labels.nextWhile) :: conditionCode ++
        [.operate .not, .ifGoto ("WHILE_END" ++ toString labels.nextWhile)] ++ bodyCode ++
        [.goto ("WHILE_EXP" ++ toString labels.nextWhile),
          .label ("WHILE_END" ++ toString labels.nextWhile)] := by
  rw [Statement.code] at generated
  obtain ⟨conditionCode, conditionGenerated, generated⟩ := bind_eq_ok_iff.mp generated
  obtain ⟨⟨bodyCode, last⟩, bodyGenerated, generated⟩ := bind_eq_ok_iff.mp generated
  cases generated
  exact ⟨conditionCode, bodyCode, conditionGenerated, bodyGenerated, rfl⟩

theorem code_do {call : Call}
    (generated : Statement.code frame (.do call) labels = .ok (emitted, after)) :
    ∃ callCode, call.code frame = .ok callCode ∧ emitted = callCode ++ [.pop .temp 0] ∧
      after = labels := by
  rw [Statement.code] at generated
  obtain ⟨callCode, callGenerated, generated⟩ := bind_eq_ok_iff.mp generated
  cases generated
  exact ⟨callCode, callGenerated, rfl, rfl⟩

theorem code_return {value : Expression}
    (generated : Statement.code frame (.return (some value)) labels = .ok (emitted, after)) :
    ∃ valueCode, Expression.code frame value = .ok valueCode ∧
      emitted = valueCode ++ [.return] ∧ after = labels := by
  rw [Statement.code] at generated
  obtain ⟨valueCode, valueGenerated, generated⟩ := bind_eq_ok_iff.mp generated
  cases generated
  exact ⟨valueCode, valueGenerated, rfl, rfl⟩

theorem codeAll_cons {first : Statement} {rest : List Statement}
    (generated : codeAll frame (first :: rest) labels = .ok (emitted, after)) :
    ∃ firstCode middle restCode, first.code frame labels = .ok (firstCode, middle) ∧
      codeAll frame rest middle = .ok (restCode, after) ∧ emitted = firstCode ++ restCode := by
  rw [codeAll] at generated
  obtain ⟨⟨firstCode, middle⟩, firstGenerated, generated⟩ := bind_eq_ok_iff.mp generated
  obtain ⟨⟨restCode, last⟩, restGenerated, generated⟩ := bind_eq_ok_iff.mp generated
  cases generated
  exact ⟨firstCode, middle, restCode, firstGenerated, restGenerated, rfl⟩

end Statement

/-- The code of a subroutine: its head, what it does on entry, and its body. -/
theorem Subroutine.code_eq_ok {className : String} {members : SymbolTable}
    {signatures : SignatureTable} {subroutine : Subroutine} {block : List Instruction}
    (generated : subroutine.code className members signatures = .ok block) :
    ∃ own bodyCode after, SymbolTable.ofSubroutine className subroutine = .ok own ∧
      Statement.codeAll (subroutine.frame className signatures members own) subroutine.body {} =
        .ok (bodyCode, after) ∧
      block = .function (qualifiedName className subroutine.name) (own.count .local) ::
        subroutine.kind.entryCode (members.count .field) ++ bodyCode := by
  rw [Subroutine.code] at generated
  obtain ⟨own, built, generated⟩ := bind_eq_ok_iff.mp generated
  obtain ⟨⟨bodyCode, after⟩, bodyGenerated, generated⟩ := bind_eq_ok_iff.mp generated
  cases generated
  exact ⟨own, bodyCode, after, built, Halt.onError_eq_ok_iff.mp bodyGenerated, rfl⟩

end ClassLang
