import ClassLang.Proofs.Blocks
import Mathlib.Data.List.Nodup

/-!
Jumps stay inside their subroutine: each leads to a label there, and there is only one label of
that name. An `if` has three labels and a `while` has two; there are no others.
-/

namespace ClassLang

namespace Vm

/-- The label to which the instruction may jump. -/
def Instruction.target? : Instruction → Option String
  | .goto name => some name
  | .ifGoto name => some name
  | _ => none

/-- The labels to which the code jumps. -/
def targets (code : List Instruction) : List String :=
  code.filterMap Instruction.target?

@[simp] theorem targets_nil : targets [] = [] := rfl

@[simp] theorem targets_append (first second : List Instruction) :
    targets (first ++ second) = targets first ++ targets second :=
  List.filterMap_append

@[simp] theorem targets_cons (instruction : Instruction) (rest : List Instruction) :
    targets (instruction :: rest) = instruction.target?.toList ++ targets rest := by
  cases instruction <;> rfl

theorem targets_eq_nil {code : List Instruction}
    (plain : ∀ instruction ∈ code, instruction.isPlain = true) : targets code = [] := by
  apply List.filterMap_eq_nil_iff.mpr
  intro instruction membership
  have plainInstruction := plain instruction membership
  cases instruction <;> first | rfl | simp [Instruction.isPlain] at plainInstruction

theorem mem_targets {code : List Instruction} {name : String} :
    name ∈ targets code ↔ .goto name ∈ code ∨ .ifGoto name ∈ code := by
  induction code with
  | nil => simp
  | cons instruction rest inductionHypothesis =>
      cases instruction <;>
        simp only [targets_cons, Instruction.target?, Option.toList_some, Option.toList_none,
          List.nil_append, List.singleton_append, List.mem_cons, inductionHypothesis,
          reduceCtorEq, false_or, Instruction.goto.injEq, Instruction.ifGoto.injEq]
      · rw [or_assoc]
      · rw [or_left_comm]

theorem count_labelNames (code : List Instruction) (name : String) :
    (labelNames code).count name = code.count (.label name) := by
  induction code with
  | nil => rfl
  | cons instruction rest inductionHypothesis =>
      cases instruction <;> simp [List.count_cons, inductionHypothesis]

end Vm

open Vm

namespace Statement

mutual

/-- The statement and those inside it, at any depth. -/
def within : Statement → List Statement
  | .let name index value => [.let name index value]
  | .if condition thenBranch elseBranch =>
      .if condition thenBranch elseBranch :: (allWithin thenBranch ++ allWithin elseBranch)
  | .while condition body => .while condition body :: allWithin body
  | .do call => [.do call]
  | .return value => [.return value]

def allWithin : List Statement → List Statement
  | [] => []
  | first :: rest => first.within ++ allWithin rest

end

def isIf : Statement → Bool
  | .if .. => true
  | _ => false

def isWhile : Statement → Bool
  | .while .. => true
  | _ => false

end Statement

/-- The code jumps to labels of its own, and it has the labels of the statements that it is made
from. -/
structure JumpsInside (code : List Instruction) (statements : List Statement) : Prop where
  reached : ∀ name ∈ targets code, name ∈ labelNames code
  length : (labelNames code).length =
    3 * statements.countP Statement.isIf + 2 * statements.countP Statement.isWhile

theorem jumpsInside_of_straight {code : List Instruction} {statement : Statement}
    (unlabelled : labelNames code = []) (straight : targets code = [])
    (simple : statement.isIf = false ∧ statement.isWhile = false) :
    JumpsInside code [statement] where
  reached := by simp [straight]
  length := by simp [unlabelled, simple]

theorem JumpsInside.append {first second : List Instruction} {before behind : List Statement}
    (insideFirst : JumpsInside first before) (insideSecond : JumpsInside second behind) :
    JumpsInside (first ++ second) (before ++ behind) where
  reached name membership := by
    rw [targets_append, List.mem_append] at membership
    rw [labelNames_append, List.mem_append]
    exact membership.imp (insideFirst.reached name) (insideSecond.reached name)
  length := by
    rw [labelNames_append, List.length_append, insideFirst.length, insideSecond.length,
      List.countP_append, List.countP_append]
    omega

/-- A statement adds labels of its own, and jumps to them, around the code inside it. -/
theorem JumpsInside.enclose {inside code : List Instruction} {statement : Statement}
    {statements : List Statement} (jumps : JumpsInside inside statements) (own : List String)
    (labelled : ∀ name, name ∈ labelNames code ↔ name ∈ own ∨ name ∈ labelNames inside)
    (targeted : ∀ name ∈ targets code, name ∈ own ∨ name ∈ targets inside)
    (length : (labelNames code).length = own.length + (labelNames inside).length)
    (number : own.length =
      3 * [statement].countP Statement.isIf + 2 * [statement].countP Statement.isWhile) :
    JumpsInside code (statement :: statements) where
  reached name membership :=
    (labelled name).mpr ((targeted name membership).imp_right (jumps.reached name))
  length := by
    have split (test : Statement → Bool) :
        (statement :: statements).countP test =
          [statement].countP test + statements.countP test := by
      rw [← List.countP_append, List.singleton_append]
    rw [length, number, jumps.length, split, split]
    omega

namespace Statement

variable {frame : Frame}

mutual

theorem code_jumpsInside : (statement : Statement) → {labels after : Labels} →
    {code : List Instruction} → statement.code frame labels = .ok (code, after) →
    JumpsInside code statement.within
  | .let _ none value, _, _, _, generated => by
      obtain ⟨_, _, valueCode, -, valueGenerated, rfl, -⟩ := code_let generated
      have plain := Expression.code_plain value valueGenerated
      refine jumpsInside_of_straight ?_ ?_ ⟨rfl, rfl⟩
      · simp [labelNames_eq_nil plain]
      · simp [targets_eq_nil plain, Instruction.target?]
  | .let _ (some index) value, _, _, _, generated => by
      obtain ⟨_, _, indexCode, valueCode, -, indexGenerated, valueGenerated, rfl, -⟩ :=
        code_letItem generated
      have indexPlain := Expression.code_plain index indexGenerated
      have valuePlain := Expression.code_plain value valueGenerated
      refine jumpsInside_of_straight ?_ ?_ ⟨rfl, rfl⟩
      · simp [labelNames_eq_nil indexPlain, labelNames_eq_nil valuePlain]
      · simp [targets_eq_nil indexPlain, targets_eq_nil valuePlain, Instruction.target?]
  | .if condition thenBranch elseBranch, labels, _, _, generated => by
      obtain ⟨conditionCode, thenCode, middle, elseCode, conditionGenerated, thenGenerated,
        elseGenerated, rfl⟩ := code_if generated
      have plain := Expression.code_plain condition conditionGenerated
      have inside := (codeAll_jumpsInside thenBranch thenGenerated).append
        (codeAll_jumpsInside elseBranch elseGenerated)
      refine inside.enclose ["IF_TRUE" ++ toString labels.nextIf,
        "IF_FALSE" ++ toString labels.nextIf, "IF_END" ++ toString labels.nextIf] ?_ ?_ ?_ rfl
      · intro name
        simp only [labelNames_append, labelNames_cons, labelNames_nil, labelNames_eq_nil plain,
          List.mem_append, List.mem_cons, List.not_mem_nil]
        tauto
      · intro name
        simp only [targets_append, targets_cons, targets_nil, targets_eq_nil plain,
          Instruction.target?, Option.toList_some, Option.toList_none, List.mem_append,
          List.mem_cons, List.not_mem_nil]
        tauto
      · simp only [labelNames_append, labelNames_cons, labelNames_nil, labelNames_eq_nil plain,
          List.length_append, List.length_cons, List.length_nil]
        omega
  | .while condition body, labels, _, _, generated => by
      obtain ⟨conditionCode, bodyCode, conditionGenerated, bodyGenerated, rfl⟩ :=
        code_while generated
      have plain := Expression.code_plain condition conditionGenerated
      refine (codeAll_jumpsInside body bodyGenerated).enclose
        ["WHILE_EXP" ++ toString labels.nextWhile, "WHILE_END" ++ toString labels.nextWhile]
        ?_ ?_ ?_ rfl
      · intro name
        simp only [labelNames_append, labelNames_cons, labelNames_nil, labelNames_eq_nil plain,
          List.cons_append, List.mem_append, List.mem_cons, List.not_mem_nil]
        tauto
      · intro name
        simp only [targets_append, targets_cons, targets_nil, targets_eq_nil plain,
          Instruction.target?, Option.toList_some, Option.toList_none, List.cons_append,
          List.mem_append, List.mem_cons, List.not_mem_nil]
        tauto
      · simp only [labelNames_append, labelNames_cons, labelNames_nil, labelNames_eq_nil plain,
          List.cons_append, List.length_append, List.length_cons, List.length_nil]
        omega
  | .do call, _, _, _, generated => by
      obtain ⟨callCode, callGenerated, rfl, -⟩ := code_do generated
      have plain := call.code_plain callGenerated
      refine jumpsInside_of_straight ?_ ?_ ⟨rfl, rfl⟩
      · simp [labelNames_eq_nil plain]
      · simp [targets_eq_nil plain, Instruction.target?]
  | .return none, _, _, _, generated => by
      cases generated
      exact jumpsInside_of_straight rfl rfl ⟨rfl, rfl⟩
  | .return (some value), _, _, _, generated => by
      obtain ⟨valueCode, valueGenerated, rfl, -⟩ := code_return generated
      have plain := Expression.code_plain value valueGenerated
      refine jumpsInside_of_straight ?_ ?_ ⟨rfl, rfl⟩
      · simp [labelNames_eq_nil plain]
      · simp [targets_eq_nil plain, Instruction.target?]

theorem codeAll_jumpsInside : (statements : List Statement) → {labels after : Labels} →
    {code : List Instruction} → codeAll frame statements labels = .ok (code, after) →
    JumpsInside code (allWithin statements)
  | [], _, _, _, generated => by
      cases generated
      exact ⟨by simp, rfl⟩
  | first :: rest, _, _, _, generated => by
      obtain ⟨firstCode, middle, restCode, firstGenerated, restGenerated, rfl⟩ :=
        codeAll_cons generated
      exact (code_jumpsInside first firstGenerated).append (codeAll_jumpsInside rest restGenerated)

end

end Statement

/-- In the block of a subroutine no label occurs twice, every jump names a label of the block, and
the labels are three for each `if` and two for each `while` of the body. -/
structure Subroutine.Labelled (subroutine : Subroutine) (block : List Instruction) : Prop where
  nodup : (labelNames block).Nodup
  closed : ∀ name, .goto name ∈ block ∨ .ifGoto name ∈ block → block.count (.label name) = 1
  length : (labelNames block).length =
    3 * (Statement.allWithin subroutine.body).countP Statement.isIf +
      2 * (Statement.allWithin subroutine.body).countP Statement.isWhile

theorem Subroutine.code_labelled {className : String} {members : SymbolTable}
    {signatures : SignatureTable} {subroutine : Subroutine} {block : List Instruction}
    (generated : subroutine.code className members signatures = .ok block) :
    subroutine.Labelled block := by
  obtain ⟨own, bodyCode, after, -, bodyGenerated, rfl⟩ := Subroutine.code_eq_ok generated
  have plain := subroutine.kind.entryCode_plain (members.count .field)
  have spent := Statement.codeAll_spent subroutine.body bodyGenerated
  have jumps := Statement.codeAll_jumpsInside subroutine.body bodyGenerated
  have sameLabels : labelNames (.function (qualifiedName className subroutine.name)
      (own.count .local) :: subroutine.kind.entryCode (members.count .field) ++ bodyCode) =
      labelNames bodyCode := by
    simp [labelNames_eq_nil plain]
  constructor
  · rw [sameLabels]
    exact spent.nodup
  · intro name jumped
    rw [← count_labelNames, sameLabels]
    apply List.nodup_iff_count_eq_one.mp spent.nodup
    apply jumps.reached
    simpa [targets_eq_nil plain, Instruction.target?] using mem_targets.mpr jumped
  · rw [sameLabels]
    exact jumps.length

/-- Jumps are closed and labels are unique in the block of every subroutine. -/
theorem Class.code_closes_jumps {cls : Class} {signatures : SignatureTable}
    {code : List Instruction} (generated : cls.code signatures = .ok code) :
    List.Forall₂ Subroutine.Labelled cls.subroutines (blocks code) := by
  obtain ⟨members, -, matched⟩ := Class.blocks_code generated
  exact matched.imp fun _ _ blockGenerated => Subroutine.code_labelled blockGenerated

/-- A branch and a loop inside a loop, and a branch in another subroutine. -/
def maze : Class where
  name := "Maze"
  members := []
  subroutines := [
    { kind := .function
      returnType := .void
      name := "walk"
      parameters := [⟨.primitive .int, "steps"⟩]
      locals := []
      body := [
        .while [.term (.var "steps")]
          [.if [.term (.var "steps"), .op .equal, .term (.int 2)]
            [.return none]
            [.while [.term (.constant (.boolean false))] []]],
        .return none] },
    { kind := .function
      returnType := .void
      name := "rest"
      parameters := []
      locals := []
      body := [.if [.term (.int 1)] [] [], .return none] }]

def mazeCode : List Instruction :=
  [.function "Maze.walk" 0,
    .label "WHILE_EXP0", .push .argument 0, .operate .not, .ifGoto "WHILE_END0",
    .push .argument 0, .push .constant 2, .operate .eq,
    .ifGoto "IF_TRUE0", .goto "IF_FALSE0", .label "IF_TRUE0", .push .constant 0, .return,
    .goto "IF_END0", .label "IF_FALSE0",
    .label "WHILE_EXP1", .push .constant 0, .operate .not, .ifGoto "WHILE_END1",
    .goto "WHILE_EXP1", .label "WHILE_END1", .label "IF_END0",
    .goto "WHILE_EXP0", .label "WHILE_END0", .push .constant 0, .return,
    .function "Maze.rest" 0,
    .push .constant 1, .ifGoto "IF_TRUE0", .goto "IF_FALSE0", .label "IF_TRUE0",
    .goto "IF_END0", .label "IF_FALSE0", .label "IF_END0", .push .constant 0, .return]

theorem maze_jumps_closed :
    maze.code {} = .ok mazeCode ∧
      List.Forall₂ Subroutine.Labelled maze.subroutines (blocks mazeCode) := by
  have generated : maze.code {} = .ok mazeCode := rfl
  exact ⟨generated, Class.code_closes_jumps generated⟩

end ClassLang
