import ClassLang.Proofs.Jumps

/-!
Expressions group to the right.

Code generation goes through an expression once: it emits the terms in order, puts the operators
aside and emits them at the end, last to first. Here the same code is said by recursion: a term,
the rest of the expression, and then the operator between the two, with the same in brackets,
indices and arguments. Both agree on every list of terms and operators, also on those that do not
alternate and have no code.
-/

namespace ClassLang

open Vm

def CompileError.noExpression : CompileError :=
  .unexpected "expression" "nothing"

mutual

def Term.groupedCode (frame : Frame) : Term → Except CompileError (List Instruction)
  | .item array index => do
      let (segment, place) ← frame.resolve array
      let indexCode ← Expression.groupedCode frame .noExpression index
      return .push segment place :: indexCode ++
        [.operate .add, .pop .pointer 1, .push .that 0]
  | .paren inner => Expression.groupedCode frame .noExpression inner
  | .unary op operand => do
      let operandCode ← operand.groupedCode frame
      return operandCode ++ [.operate op.operation]
  | .call call => call.groupedCode frame
  -- No other term has an expression inside.
  | simple => simple.code frame

/-- A term, the rest of the expression and the operator between them. The terms before a fault
are generated first, so that their errors come first. The error of an empty list is given, since
an expression may be missing as a whole or behind an operator. -/
def Expression.groupedCode (frame : Frame) (missing : CompileError) :
    List Element → Except CompileError (List Instruction)
  | [] => .error missing
  | [.term last] => last.groupedCode frame
  | .term first :: .op op :: rest => do
      let firstCode ← first.groupedCode frame
      let restCode ← Expression.groupedCode frame frame.malformed rest
      return firstCode ++ restCode ++ [op.code]
  | .term first :: .term _ :: _ => do
      let _ ← first.groupedCode frame
      .error frame.malformed
  | .op _ :: _ => .error frame.malformed

def Call.groupedCode (frame : Frame) : Call → Except CompileError (List Instruction)
  | .mk receiver name arguments => do
      let (className, receiverCode) ← frame.target receiver name
      frame.checkArity className name arguments.length
      let argumentsCode ← Call.groupedArguments frame arguments
      return receiverCode ++ argumentsCode ++
        [.call (qualifiedName className name) (receiverCode.length + arguments.length)]

def Call.groupedArguments (frame : Frame) :
    List (List Element) → Except CompileError (List Instruction)
  | [] => .ok []
  | first :: rest => do
      let firstCode ← Expression.groupedCode frame .noExpression first
      let restCode ← Call.groupedArguments frame rest
      return firstCode ++ restCode

end

namespace Expression

/-- What a missing expression is called does not matter where there is one. -/
theorem groupedCode_cons (frame : Frame) (missing other : CompileError) (first : Element)
    (rest : List Element) :
    groupedCode frame missing (first :: rest) = groupedCode frame other (first :: rest) := by
  match first, rest with
  | .op _, _ => simp only [groupedCode]
  | .term _, [] => simp only [groupedCode]
  | .term _, .op _ :: _ => simp only [groupedCode]
  | .term _, .term _ :: _ => simp only [groupedCode]

end Expression

section

variable (frame : Frame)

mutual

theorem Term.code_eq_groupedCode : (term : Term) → term.code frame = term.groupedCode frame
  | .int _ => by simp [Term.groupedCode]
  | .string _ => by simp [Term.groupedCode]
  | .constant _ => by simp [Term.groupedCode]
  | .var _ => by simp [Term.groupedCode]
  | .item array index => by
      rw [Term.code, Term.groupedCode, Expression.code_eq_groupedCode index]
  | .paren inner => by
      rw [Term.code, Term.groupedCode, Expression.code_eq_groupedCode inner]
  | .unary op operand => by
      rw [Term.code, Term.groupedCode, Term.code_eq_groupedCode operand]
  | .call call => by rw [Term.code, Term.groupedCode, Call.code_eq_groupedCode call]

theorem Expression.code_eq_groupedCode : (elements : List Element) →
    Expression.code frame elements = Expression.groupedCode frame .noExpression elements
  | [] => by
      rw [Expression.code, Expression.groupedCode]
      rfl
  | .op _ :: _ => by rw [Expression.code, Expression.groupedCode]
  | [.term last] => by
      rw [Expression.code_singleton, Expression.groupedCode, Term.code_eq_groupedCode last]
  | .term first :: .term _ :: _ => by
      simp [Expression.code, Expression.operationsCode, Expression.groupedCode,
        Term.code_eq_groupedCode first]
  | [.term first, .op _] => by
      simp [Expression.code, Expression.operationsCode, Expression.groupedCode,
        Term.code_eq_groupedCode first]
  | .term first :: .op _ :: .op _ :: _ => by
      simp [Expression.code, Expression.operationsCode, Expression.groupedCode,
        Term.code_eq_groupedCode first]
  | .term first :: .op op :: .term second :: rest => by
      -- The rest is not empty, so both readings of a missing expression agree on it.
      rw [Expression.code_operation_term, Expression.groupedCode, Term.code_eq_groupedCode first,
        Expression.code_eq_groupedCode (.term second :: rest),
        Expression.groupedCode_cons frame .noExpression frame.malformed]

theorem Call.code_eq_groupedCode : (call : Call) → call.code frame = call.groupedCode frame
  | .mk receiver name arguments => by
      rw [Call.code, Call.groupedCode, Call.argumentsCode_eq_groupedArguments arguments]

theorem Call.argumentsCode_eq_groupedArguments : (arguments : List (List Element)) →
    Call.argumentsCode frame arguments = Call.groupedArguments frame arguments
  | [] => by rw [Call.argumentsCode, Call.groupedArguments]
  | first :: rest => by
      rw [Call.argumentsCode, Call.groupedArguments, Expression.code_eq_groupedCode first,
        Call.argumentsCode_eq_groupedArguments rest]

end

end

/-! The labels of a subroutine are counted by its `if` and `while` statements alone. -/

/-- The counters behind the given statements. -/
def Labels.behind (labels : Labels) (statements : List Statement) : Labels where
  nextIf := labels.nextIf + statements.countP Statement.isIf
  nextWhile := labels.nextWhile + statements.countP Statement.isWhile

theorem Labels.behind_append (labels : Labels) (first second : List Statement) :
    labels.behind (first ++ second) = (labels.behind first).behind second := by
  simp [Labels.behind, Nat.add_assoc]

theorem Labels.behind_cons (labels : Labels) (first : Statement) (rest : List Statement) :
    labels.behind (first :: rest) = (labels.behind [first]).behind rest :=
  labels.behind_append [first] rest

namespace Statement

variable {frame : Frame}

mutual

theorem code_counts : (statement : Statement) → {labels after : Labels} →
    {emitted : List Instruction} → statement.code frame labels = .ok (emitted, after) →
    after = labels.behind statement.within
  | .let _ none _, _, _, _, generated => by
      obtain ⟨_, _, _, -, -, -, rfl⟩ := code_let generated
      rfl
  | .let _ (some _) _, _, _, _, generated => by
      obtain ⟨_, _, _, _, -, -, -, -, rfl⟩ := code_letItem generated
      rfl
  | .if _ thenBranch elseBranch, _, _, _, generated => by
      obtain ⟨_, _, _, _, -, thenGenerated, elseGenerated, -⟩ := code_if generated
      rw [codeAll_counts elseBranch elseGenerated, codeAll_counts thenBranch thenGenerated,
        within, Labels.behind_cons, Labels.behind_append]
      rfl
  | .while _ body, _, _, _, generated => by
      obtain ⟨_, _, -, bodyGenerated, -⟩ := code_while generated
      rw [codeAll_counts body bodyGenerated, within, Labels.behind_cons]
      rfl
  | .do _, _, _, _, generated => by
      obtain ⟨_, -, -, rfl⟩ := code_do generated
      rfl
  | .return none, _, _, _, generated => by
      cases generated
      rfl
  | .return (some _), _, _, _, generated => by
      obtain ⟨_, -, -, rfl⟩ := code_return generated
      rfl

theorem codeAll_counts : (statements : List Statement) → {labels after : Labels} →
    {emitted : List Instruction} → codeAll frame statements labels = .ok (emitted, after) →
    after = labels.behind (allWithin statements)
  | [], _, _, _, generated => by
      cases generated
      rfl
  | first :: rest, _, _, _, generated => by
      obtain ⟨_, _, _, firstGenerated, restGenerated, -⟩ := codeAll_cons generated
      rw [codeAll_counts rest restGenerated, code_counts first firstGenerated, allWithin,
        Labels.behind_append]

end

end Statement

/-- The code of an expression is the one that groups to the right, errors included, and no
expression moves the counters of the labels: they stand behind a statement where its `if` and
`while` statements leave them. -/
theorem Expression.code_groups_right (frame : Frame) :
    (∀ elements, Expression.code frame elements =
      Expression.groupedCode frame .noExpression elements) ∧
    (∀ elements labels, Statement.code frame (.return (some elements)) labels =
      (Expression.groupedCode frame .noExpression elements).map
        fun emitted => (emitted ++ [.return], labels)) ∧
    ∀ statement labels emitted after,
      Statement.code frame statement labels = .ok (emitted, after) →
      after = labels.behind statement.within := by
  refine ⟨Expression.code_eq_groupedCode frame, ?_, ?_⟩
  · intro elements labels
    rw [Statement.code, Expression.code_eq_groupedCode]
    cases Expression.groupedCode frame .noExpression elements with
    | error error => rfl
    | ok emitted => rfl
  · intro statement labels emitted after generated
    exact Statement.code_counts statement generated

/-- A function without variables. -/
def bareFrame : Frame where
  className := "Sum"
  subroutine := "Sum.of"
  kind := .function
  scope := ⟨{ scope := "class `Sum`" }, { scope := "`Sum.of`" }⟩
  signatures := {}

/-- `9 - 4 * (6 / 3)`. -/
def nestedQuotient : Expression :=
  [.term (.int 9), .op .subtract, .term (.int 4), .op .multiply,
    .term (.paren [.term (.int 6), .op .divide, .term (.int 3)])]

def nestedQuotientCode : List Instruction :=
  [.push .constant 9, .push .constant 4, .push .constant 6, .push .constant 3,
    .call "Math.divide" 2, .call "Math.multiply" 2, .operate .sub]

theorem nestedQuotient_groups_right :
    Expression.code bareFrame nestedQuotient = .ok nestedQuotientCode ∧
      Expression.code bareFrame [.term (.var "x"), .op .add] =
        .error (.unresolved "x" "Sum.of") ∧
      (Statement.return (some nestedQuotient)).code bareFrame ⟨2, 5⟩ =
        .ok (nestedQuotientCode ++ [.return], ⟨2, 5⟩) ∧
      ∃ emitted, (Statement.if nestedQuotient [.if nestedQuotient [] []] []).code bareFrame
        ⟨2, 5⟩ = .ok (emitted, ⟨4, 5⟩) := by
  have grouped : Expression.groupedCode bareFrame .noExpression nestedQuotient =
      .ok nestedQuotientCode := rfl
  obtain ⟨same, returned, counted⟩ := Expression.code_groups_right bareFrame
  refine ⟨?_, ?_, ?_, ?_⟩
  · rw [same, grouped]
  · rw [same]
    rfl
  · rw [returned, grouped]
    rfl
  · obtain ⟨emitted, after, generated⟩ : ∃ emitted after,
        (Statement.if nestedQuotient [.if nestedQuotient [] []] []).code bareFrame ⟨2, 5⟩ =
          .ok (emitted, after) := ⟨_, _, rfl⟩
    obtain rfl := counted _ _ _ _ generated
    exact ⟨emitted, generated⟩

end ClassLang
