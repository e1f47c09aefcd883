import ClassLang.Proofs.Preservation
import ClassLang.Proofs.StackHeight

/-!
Stack discipline.

Every position in the code of a subroutine has one height, and all paths to it agree on that
height. No instruction lacks a value, a `return` finds nothing but its result, and nothing is
left on the stack between two statements. The machine itself keeps to these heights on every run.
-/

namespace ClassLang

namespace Vm

def Instruction.fallsThrough : Instruction → Bool
  | .goto _ => false
  | .return => false
  | _ => true

/-- From one position control can pass to the other: to the next one, or to a label that a jump
names. -/
inductive Flows (code : List Instruction) : Nat → Nat → Prop where
  | next {position : Nat} {instruction : Instruction} :
      code[position]? = some instruction → instruction.fallsThrough = true →
      Flows code position (position + 1)
  | goto {position target : Nat} {name : String} :
      code[position]? = some (.goto name) → code[target]? = some (.label name) →
      Flows code position target
  | ifGoto {position target : Nat} {name : String} :
      code[position]? = some (.ifGoto name) → code[target]? = some (.label name) →
      Flows code position target

/-- The heights of the positions hold on every path through the code. -/
structure Disciplined (code : List Instruction) (height : Nat → Nat) : Prop where
  entry : ∀ position name count, code[position]? = some (.function name count) →
    height (position + 1) = 0
  flow : ∀ position instruction next, code[position]? = some instruction →
    Flows code position next →
    height next = height position - instruction.pops + instruction.pushes
  enough : ∀ position instruction, code[position]? = some instruction →
    instruction.pops ≤ height position
  /-- The values that a call takes have been pushed since some place before it, and what was on
  the stack at that place has not been touched since. -/
  operands : ∀ position name count, code[position]? = some (.call name count) →
    ∃ start ≤ position, height position = height start + count ∧
      ∀ between, start ≤ between → between ≤ position → height start ≤ height between
  labels : ∀ position name, code[position]? = some (.label name) → height position = 0
  returns : ∀ position, code[position]? = some .return → height position = 1

/-- A single instruction adds at most one value. -/
theorem heightAt_succ_le (code : List Instruction) (position : Nat) :
    heightAt code (position + 1) ≤ heightAt code position + 1 := by
  cases found : code[position]? with
  | none => simp [heightAt, List.take_add_one, found]
  | some instruction =>
      rw [heightAt_succ found, Instruction.lift]
      have few : instruction.pushes ≤ 1 := by cases instruction <;> simp
      omega

/-- The height does not jump up, so before every position there is a last one at each lower
height. -/
theorem exists_heightAt_eq {code : List Instruction} {position lower : Nat}
    (below : lower ≤ heightAt code position) :
    ∃ start ≤ position, heightAt code start = lower ∧
      ∀ between, start ≤ between → between ≤ position → lower ≤ heightAt code between := by
  induction position with
  | zero =>
      rw [heightAt_zero] at below
      refine ⟨0, Nat.le_refl 0, by rw [heightAt_zero]; omega, ?_⟩
      intro between _ _
      omega
  | succ position inductionHypothesis =>
      by_cases reached : heightAt code (position + 1) = lower
      · refine ⟨position + 1, Nat.le_refl _, reached, ?_⟩
        intro between atLeast atMost
        rw [Nat.le_antisymm atMost atLeast, reached]
      · have small := heightAt_succ_le code position
        obtain ⟨start, before, equal, kept⟩ := inductionHypothesis (by omega)
        refine ⟨start, by omega, equal, ?_⟩
        intro between atLeast atMost
        by_cases last : between = position + 1
        · rw [last]
          exact below
        · exact kept between atLeast (by omega)

/-- Code that carries an empty stack to its end is disciplined. -/
theorem Carries.disciplined {code : List Instruction} {high : Nat}
    (carried : Carries code 0 high) : Disciplined code (heightAt code) where
  entry position name count found := by
    have empty : heightAt code position = 0 := carried.fits found
    simp [heightAt_succ found, empty]
  flow position instruction next found flows := by
    cases flows with
    | next _ _ => exact heightAt_succ found
    | goto jumps target =>
        rw [jumps] at found
        cases found
        have before : heightAt code position = 0 := carried.fits jumps
        have behind : heightAt code next = 0 := carried.fits target
        simp [before, behind]
    | ifGoto jumps target =>
        rw [jumps] at found
        cases found
        have before : heightAt code position = 1 := carried.fits jumps
        have behind : heightAt code next = 0 := carried.fits target
        simp [before, behind]
  enough position instruction found := (carried.fits found).pops_le
  operands position name count found := by
    have supplied : count ≤ heightAt code position := carried.fits found
    obtain ⟨start, before, equal, kept⟩ :=
      exists_heightAt_eq (Nat.sub_le (heightAt code position) count)
    refine ⟨start, before, by omega, ?_⟩
    rw [equal]
    exact kept
  labels position name found := carried.fits found
  returns position found := carried.fits found

/-! The machine. -/

section

variable {width : Nat} {environment : Environment width} {program : List Instruction}
  {state next : State width}

theorem Operation.apply_length {operation : Operation} {stack result : List (Word width)}
    (applied : operation.apply stack = some result) :
    operation.operands ≤ stack.length ∧
      result.length = stack.length - operation.operands + 1 := by
  unfold Operation.apply at applied
  split at applied <;> cases applied <;> simp

theorem write_stack {segment : Segment} {index : Nat} {value : Word width}
    (written : state.write segment index value = some next) :
    next.position = state.position ∧ next.stack = state.stack := by
  unfold State.write at written
  split at written <;> cases written <;> exact ⟨rfl, rfl⟩

theorem jump_eq_some {name : String} (jumped : jump program name state = some next) :
    program[next.position]? = some (.label name) ∧ next.stack = state.stack := by
  obtain ⟨target, found, rfl⟩ := Option.map_eq_some_iff.mp jumped
  obtain ⟨inside, equal, -⟩ := List.findIdx?_eq_some_iff_getElem.mp found
  refine ⟨?_, rfl⟩
  rw [List.getElem?_eq_getElem inside, beq_iff_eq.mp equal]

/-- A step follows the control flow, finds the values it takes, and changes the height of the
stack by what its instruction takes and leaves. -/
theorem step_flows (stepped : step environment program state = some next) :
    ∃ instruction, program[state.position]? = some instruction ∧
      Flows program state.position next.position ∧
      instruction.pops ≤ state.stack.length ∧
      next.stack.length = instruction.lift state.stack.length := by
  cases found : program[state.position]? with
  | none => simp [step, found] at stepped
  | some instruction =>
      refine ⟨instruction, rfl, ?_⟩
      cases instruction with
      | push segment index =>
          simp only [step, found] at stepped
          obtain ⟨value, -, rfl⟩ := Option.map_eq_some_iff.mp stepped
          exact ⟨.next found rfl, Nat.zero_le _, by simp [State.proceed]⟩
      | pop segment index =>
          cases shape : state.stack with
          | nil => simp [step, found, shape] at stepped
          | cons value stack =>
              simp only [step, found, shape] at stepped
              obtain ⟨samePosition, sameStack⟩ := write_stack stepped
              rw [samePosition, sameStack]
              exact ⟨.next found rfl, by simp, by simp [State.proceed]⟩
      | operate operation =>
          simp only [step, found] at stepped
          obtain ⟨result, applied, rfl⟩ := Option.map_eq_some_iff.mp stepped
          obtain ⟨enough, length⟩ := Operation.apply_length applied
          exact ⟨.next found rfl, enough, length⟩
      | label name =>
          simp only [step, found, Option.some.injEq] at stepped
          subst stepped
          exact ⟨.next found rfl, Nat.zero_le _, rfl⟩
      | goto name =>
          simp only [step, found] at stepped
          obtain ⟨target, sameStack⟩ := jump_eq_some stepped
          exact ⟨.goto found target, Nat.zero_le _, by rw [sameStack]; rfl⟩
      | ifGoto name =>
          cases shape : state.stack with
          | nil => simp [step, found, shape] at stepped
          | cons value stack =>
              simp only [step, found, shape] at stepped
              by_cases zero : value = 0
              · simp only [if_pos zero, Option.some.injEq] at stepped
                subst stepped
                exact ⟨.next found rfl, by simp, by simp [State.proceed]⟩
              · simp only [if_neg zero] at stepped
                obtain ⟨target, sameStack⟩ := jump_eq_some stepped
                exact ⟨.ifGoto found target, by simp, by simp [sameStack]⟩
      | call name count =>
          simp only [step, found] at stepped
          by_cases enough : count ≤ state.stack.length
          · simp only [if_pos enough, Option.some.injEq] at stepped
            subst stepped
            exact ⟨.next found rfl, enough, by simp [State.proceed]⟩
          · simp [if_neg enough] at stepped
      | function name count =>
          simp only [step, found, Option.some.injEq] at stepped
          subst stepped
          exact ⟨.next found rfl, Nat.zero_le _, rfl⟩
      | «return» => simp [step, found] at stepped

/-- Once the height of the stack is that of the position, it stays so for the whole run. -/
theorem Disciplined.run_height {height : Nat → Nat} (disciplined : Disciplined program height)
    (agrees : state.stack.length = height state.position) {steps : Nat}
    (ran : run environment program steps state = some next) :
    next.stack.length = height next.position := by
  induction steps generalizing state with
  | zero =>
      cases ran
      exact agrees
  | succ steps inductionHypothesis =>
      obtain ⟨middle, stepped, ranOn⟩ := Option.bind_eq_some_iff.mp ran
      obtain ⟨instruction, found, flows, -, lifted⟩ := step_flows stepped
      apply inductionHypothesis _ ranOn
      rw [lifted, disciplined.flow _ _ _ found flows, agrees]
      rfl

end

end Vm

open Vm

/-! Statement boundaries. -/

/-- In the code of a body that starts at `start`, the code of the given statements, which end the
body or a branch or loop in it, starts at a position. -/
inductive Suite (frame : Frame) (body : List Statement) (start : Nat) :
    Nat → List Statement → Labels → Prop where
  | body : Suite frame body start start body {}
  | rest {position : Nat} {first : Statement} {rest : List Statement} {labels after : Labels}
      {firstCode : List Instruction} :
      Suite frame body start position (first :: rest) labels →
      first.code frame labels = .ok (firstCode, after) →
      Suite frame body start (position + firstCode.length) rest after
  | thenBranch {position : Nat} {condition : Expression}
      {thenBranch elseBranch rest : List Statement} {labels : Labels}
      {conditionCode : List Instruction} :
      Suite frame body start position (.if condition thenBranch elseBranch :: rest) labels →
      Expression.code frame condition = .ok conditionCode →
      Suite frame body start (position + conditionCode.length + 3) thenBranch
        { labels with nextIf := labels.nextIf + 1 }
  | elseBranch {position : Nat} {condition : Expression}
      {thenBranch elseBranch rest : List Statement} {labels middle : Labels}
      {conditionCode thenCode : List Instruction} :
      Suite frame body start position (.if condition thenBranch elseBranch :: rest) labels →
      Expression.code frame condition = .ok conditionCode →
      Statement.codeAll frame thenBranch { labels with nextIf := labels.nextIf + 1 } =
        .ok (thenCode, middle) →
      Suite frame body start (position + conditionCode.length + 3 + thenCode.length + 2)
        elseBranch middle
  | whileBody {position : Nat} {condition : Expression} {inner rest : List Statement}
      {labels : Labels} {conditionCode : List Instruction} :
      Suite frame body start position (.while condition inner :: rest) labels →
      Expression.code frame condition = .ok conditionCode →
      Suite frame body start (position + conditionCode.length + 3) inner
        { labels with nextWhile := labels.nextWhile + 1 }

section

variable {frame : Frame} {program : List Instruction} {position : Nat} {labels after : Labels}

/-- Both branches of an `if` start on an empty stack. -/
theorem Statement.code_if_branches {condition : Expression}
    {thenBranch elseBranch : List Statement} {code : List Instruction}
    (generated : Statement.code frame (.if condition thenBranch elseBranch) labels =
      .ok (code, after))
    (placed : CodeAt program position code) (empty : heightAt program position = 0) :
    ∃ conditionCode thenCode middle elseCode,
      Expression.code frame condition = .ok conditionCode ∧
      codeAll frame thenBranch { labels with nextIf := labels.nextIf + 1 } =
        .ok (thenCode, middle) ∧
      codeAll frame elseBranch middle = .ok (elseCode, after) ∧
      CodeAt program (position + conditionCode.length + 3) thenCode ∧
      heightAt program (position + conditionCode.length + 3) = 0 ∧
      CodeAt program (position + conditionCode.length + 3 + thenCode.length + 2) elseCode ∧
      heightAt program (position + conditionCode.length + 3 + thenCode.length + 2) = 0 := by
  obtain ⟨conditionCode, thenCode, middle, elseCode, conditionGenerated, thenGenerated,
    elseGenerated, rfl⟩ := code_if generated
  simp only [List.append_assoc, codeAt_append, List.length_cons, List.length_nil, Nat.zero_add,
    Nat.reduceAdd] at placed
  obtain ⟨conditionPlaced, partingPlaced, thenPlaced, passingPlaced, elsePlaced, -⟩ := placed
  have held : heightAt program (position + conditionCode.length) = 1 := by
    apply conditionPlaced.heightAt_eq
    rw [empty]
    exact Expression.code_carries condition conditionGenerated 0
  have thenEmpty : heightAt program (position + conditionCode.length + 3) = 0 :=
    partingPlaced.heightAt_eq (by simp [held])
  have thenDone : heightAt program (position + conditionCode.length + 3 + thenCode.length) = 0 := by
    apply thenPlaced.heightAt_eq
    rw [thenEmpty]
    exact codeAll_carries thenBranch thenGenerated
  have elseEmpty :
      heightAt program (position + conditionCode.length + 3 + thenCode.length + 2) = 0 :=
    passingPlaced.heightAt_eq (by simp [thenDone])
  exact ⟨conditionCode, thenCode, middle, elseCode, conditionGenerated, thenGenerated,
    elseGenerated, thenPlaced, thenEmpty, elsePlaced, elseEmpty⟩

theorem Statement.code_while_body {condition : Expression} {body : List Statement}
    {code : List Instruction}
    (generated : Statement.code frame (.while condition body) labels = .ok (code, after))
    (placed : CodeAt program position code) (empty : heightAt program position = 0) :
    ∃ conditionCode bodyCode, Expression.code frame condition = .ok conditionCode ∧
      codeAll frame body { labels with nextWhile := labels.nextWhile + 1 } =
        .ok (bodyCode, after) ∧
      CodeAt program (position + conditionCode.length + 3) bodyCode ∧
      heightAt program (position + conditionCode.length + 3) = 0 := by
  obtain ⟨conditionCode, bodyCode, conditionGenerated, bodyGenerated, rfl⟩ := code_while generated
  simp only [List.append_assoc, codeAt_append] at placed
  obtain ⟨startPlaced, testPlaced, bodyPlaced, -⟩ := placed
  have held : heightAt program (position + (conditionCode.length + 1)) = 1 := by
    apply startPlaced.heightAt_eq
    rw [empty]
    exact ⟨rfl, Expression.code_carries condition conditionGenerated 0⟩
  have bodyEmpty : heightAt program (position + (conditionCode.length + 1) + 2) = 0 :=
    testPlaced.heightAt_eq (by simp [held])
  exact ⟨conditionCode, bodyCode, conditionGenerated, bodyGenerated, bodyPlaced, bodyEmpty⟩

/-- Where a suite starts, its code stands and the stack is empty. -/
theorem Suite.placed_empty {body : List Statement} {start : Nat} {bodyCode : List Instruction}
    {last : Labels} (generated : Statement.codeAll frame body {} = .ok (bodyCode, last))
    (bodyPlaced : CodeAt program start bodyCode) (empty : heightAt program start = 0)
    {statements : List Statement} (suite : Suite frame body start position statements labels) :
    ∃ code later, Statement.codeAll frame statements labels = .ok (code, later) ∧
      CodeAt program position code ∧ heightAt program position = 0 := by
  -- The code of the suite around it says where the next suite starts.
  induction suite with
  | body => exact ⟨bodyCode, last, generated, bodyPlaced, empty⟩
  | rest _ firstGenerated inductionHypothesis =>
      obtain ⟨_, later, allGenerated, placed, emptyBefore⟩ := inductionHypothesis
      obtain ⟨_, _, restCode, again, restGenerated, rfl⟩ := Statement.codeAll_cons allGenerated
      rw [firstGenerated] at again
      cases again
      obtain ⟨firstPlaced, restPlaced⟩ := codeAt_append.mp placed
      refine ⟨restCode, later, restGenerated, restPlaced, firstPlaced.heightAt_eq ?_⟩
      rw [emptyBefore]
      exact Statement.code_carries _ firstGenerated
  | thenBranch _ conditionGenerated inductionHypothesis =>
      obtain ⟨_, _, allGenerated, placed, emptyBefore⟩ := inductionHypothesis
      obtain ⟨_, _, _, ifGenerated, -, rfl⟩ := Statement.codeAll_cons allGenerated
      obtain ⟨_, thenCode, middle, _, again, thenGenerated, -, thenPlaced, thenEmpty, -⟩ :=
        Statement.code_if_branches ifGenerated (codeAt_append.mp placed).1 emptyBefore
      rw [conditionGenerated] at again
      cases again
      exact ⟨thenCode, middle, thenGenerated, thenPlaced, thenEmpty⟩
  | elseBranch _ conditionGenerated thenGenerated inductionHypothesis =>
      obtain ⟨_, _, allGenerated, placed, emptyBefore⟩ := inductionHypothesis
      obtain ⟨_, later, _, ifGenerated, -, rfl⟩ := Statement.codeAll_cons allGenerated
      obtain ⟨_, _, _, elseCode, again, thenAgain, elseGenerated, -, -, elsePlaced, elseEmpty⟩ :=
        Statement.code_if_branches ifGenerated (codeAt_append.mp placed).1 emptyBefore
      rw [conditionGenerated] at again
      rw [thenGenerated] at thenAgain
      cases again
      cases thenAgain
      exact ⟨elseCode, later, elseGenerated, elsePlaced, elseEmpty⟩
  | whileBody _ conditionGenerated inductionHypothesis =>
      obtain ⟨_, _, allGenerated, placed, emptyBefore⟩ := inductionHypothesis
      obtain ⟨_, later, _, whileGenerated, -, rfl⟩ := Statement.codeAll_cons allGenerated
      obtain ⟨_, innerCode, again, innerGenerated, innerPlaced, innerEmpty⟩ :=
        Statement.code_while_body whileGenerated (codeAt_append.mp placed).1 emptyBefore
      rw [conditionGenerated] at again
      cases again
      exact ⟨innerCode, later, innerGenerated, innerPlaced, innerEmpty⟩

end

section

variable (cls : Class) (signatures : SignatureTable) (subroutine : Subroutine)

/-- At the position a statement of the body begins or the last one of a list ends, at any
depth. -/
def Subroutine.Boundary (position : Nat) : Prop :=
  ∃ members own statements labels, SymbolTable.ofClass cls = .ok members ∧
    SymbolTable.ofSubroutine cls.name subroutine = .ok own ∧
    Suite (subroutine.frame cls.name signatures members own) subroutine.body
      (1 + (subroutine.kind.entryCode (members.count .field)).length) position statements labels

/-- The heights are kept on all paths through the code of the subroutine, nothing is on the stack
between its statements, and the machine has these heights on every run. -/
structure Subroutine.Balanced (block : List Instruction) (height : Nat → Nat) : Prop where
  disciplined : Disciplined block height
  boundary : ∀ position, subroutine.Boundary cls signatures position → height position = 0
  running : ∀ (width : Nat) (environment : Environment width) (state next : State width)
    (steps : Nat), state.position = 0 → state.stack = [] →
    run environment block steps state = some next → next.stack.length = height next.position

end

theorem SubroutineKind.entryCode_carries (kind : SubroutineKind) (fields : Nat) :
    Carries (kind.entryCode fields) 0 0 := by
  cases kind <;> simp [SubroutineKind.entryCode]

/-- Where a statement begins or the last one ends, the stack is empty. -/
theorem Subroutine.Boundary.heightAt_eq {cls : Class} {members : SymbolTable}
    {signatures : SignatureTable} {subroutine : Subroutine} {block : List Instruction}
    {position : Nat} (built : SymbolTable.ofClass cls = .ok members)
    (generated : subroutine.code cls.name members signatures = .ok block)
    (boundary : subroutine.Boundary cls signatures position) : heightAt block position = 0 := by
  obtain ⟨own, bodyCode, after, builtOwn, bodyGenerated, rfl⟩ := Subroutine.code_eq_ok generated
  obtain ⟨_, _, statements, labels, membersAgain, ownAgain, suite⟩ := boundary
  rw [built] at membersAgain
  rw [builtOwn] at ownAgain
  cases membersAgain
  cases ownAgain
  have placed := codeAt_self [] (.function (qualifiedName cls.name subroutine.name)
    (own.count .local) :: subroutine.kind.entryCode (members.count .field) ++ bodyCode) []
  rw [List.nil_append, List.append_nil, List.length_nil] at placed
  obtain ⟨openingPlaced, bodyPlaced⟩ := codeAt_append.mp placed
  have empty := openingPlaced.heightAt_eq ⟨rfl, subroutine.kind.entryCode_carries _⟩
  rw [List.length_cons, Nat.zero_add, Nat.add_comm] at bodyPlaced empty
  obtain ⟨-, -, -, -, emptyThere⟩ := suite.placed_empty bodyGenerated bodyPlaced empty
  exact emptyThere

theorem Subroutine.code_balanced {cls : Class} {members : SymbolTable}
    {signatures : SignatureTable} {subroutine : Subroutine} {block : List Instruction}
    (built : SymbolTable.ofClass cls = .ok members)
    (generated : subroutine.code cls.name members signatures = .ok block) :
    subroutine.Balanced cls signatures block (heightAt block) := by
  have disciplined : Disciplined block (heightAt block) := by
    obtain ⟨own, bodyCode, after, -, bodyGenerated, rfl⟩ := Subroutine.code_eq_ok generated
    have carried := (subroutine.kind.entryCode_carries (members.count .field)).append
      (Statement.codeAll_carries subroutine.body bodyGenerated)
    exact Carries.disciplined ⟨rfl, carried⟩
  refine ⟨disciplined, ?_, ?_⟩
  · intro position boundary
    exact boundary.heightAt_eq built generated
  · intro width environment state next steps atStart empty ran
    apply disciplined.run_height _ ran
    rw [atStart, empty, heightAt_zero, List.length_nil]

/-- In the code of a class, the block of every subroutine has an assignment of heights that all
paths, all statements and all runs keep. -/
theorem Class.code_keeps_stack_discipline {cls : Class} {signatures : SignatureTable}
    {code : List Instruction} (generated : cls.code signatures = .ok code) :
    List.Forall₂ (fun subroutine block => ∃ height, subroutine.Balanced cls signatures block height)
      cls.subroutines (blocks code) := by
  obtain ⟨members, built, matched⟩ := Class.blocks_code generated
  apply matched.imp
  intro subroutine block blockGenerated
  exact ⟨heightAt block, Subroutine.code_balanced built blockGenerated⟩

/-- An array that a method fills from its end, calling itself inside a branch. -/
def row : Class where
  name := "Row"
  members := [⟨.field, .object "Array", ["cells"]⟩]
  subroutines := [
    { kind := .method
      returnType := .void
      name := "fill"
      parameters := [⟨.primitive .int, "size"⟩]
      locals := []
      body := [
        .if [.term (.var "size"), .op .greater, .term (.int 0)]
          [.let "cells" (some [.term (.var "size")])
              [.term (.item "cells" [.term (.int 0)]), .op .multiply, .term (.var "size")],
            .do (.mk none "fill" [[.term (.var "size"), .op .subtract, .term (.int 1)]])]
          [],
        .return none] }]

def rowCode : List Instruction :=
  [.function "Row.fill" 0, .push .argument 0, .pop .pointer 0,
    .push .argument 1, .push .constant 0, .operate .gt,
    .ifGoto "IF_TRUE0", .goto "IF_FALSE0", .label "IF_TRUE0",
    .push .this 0, .push .argument 1, .operate .add,
    .push .this 0, .push .constant 0, .operate .add, .pop .pointer 1, .push .that 0,
    .push .argument 1, .call "Math.multiply" 2,
    .pop .temp 0, .pop .pointer 1, .push .temp 0, .pop .that 0,
    .push .pointer 0, .push .argument 1, .push .constant 1, .operate .sub, .call "Row.fill" 2,
    .pop .temp 0, .goto "IF_END0", .label "IF_FALSE0", .label "IF_END0",
    .push .constant 0, .return]

theorem row_code_disciplined :
    row.code {} = .ok rowCode ∧
      List.Forall₂ (fun subroutine block => ∃ height, subroutine.Balanced row {} block height)
        row.subroutines (blocks rowCode) :=
  ⟨rfl, Class.code_keeps_stack_discipline rfl⟩

end ClassLang
