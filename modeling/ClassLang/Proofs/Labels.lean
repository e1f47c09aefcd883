import ClassLang.Proofs.CodeShape
import Std.Data.String.ToNat

/-!
Labels. The code of an expression has none, and no two labels of a subroutine have the same
name, so that every jump leads to the one place that was meant.
-/

namespace ClassLang

namespace Vm

/-- Instructions that neither end a run nor start, mark or leave a place in the code. -/
def Instruction.isPlain : Instruction → Bool
  | .push .. => true
  | .pop .. => true
  | .operate .. => true
  | .call .. => true
  | _ => false

/-- The names of the labels in a piece of code. -/
def labelNames (code : List Instruction) : List String :=
  code.filterMap fun
    | .label name => some name
    | _ => none

@[simp] theorem labelNames_nil : labelNames [] = [] := rfl

@[simp] theorem labelNames_append (first second : List Instruction) :
    labelNames (first ++ second) = labelNames first ++ labelNames second :=
  List.filterMap_append

@[simp] theorem labelNames_cons (instruction : Instruction) (rest : List Instruction) :
    labelNames (instruction :: rest) =
      match instruction with
      | .label name => name :: labelNames rest
      | _ => labelNames rest := by
  cases instruction <;> rfl

theorem labelNames_eq_nil {code : List Instruction}
    (plain : ∀ instruction ∈ code, instruction.isPlain = true) : labelNames code = [] := by
  induction code with
  | nil => rfl
  | cons instruction rest inductionHypothesis =>
      have unlabelled := inductionHypothesis fun other membership =>
        plain other (by simp [membership])
      have plainFirst := plain instruction (by simp)
      cases instruction with
      | label name => simp [Instruction.isPlain] at plainFirst
      | _ => simp [unlabelled]

theorem mem_labelNames_of_getElem? {code : List Instruction} {position : Nat} {name : String}
    (placed : code[position]? = some (.label name)) : name ∈ labelNames code :=
  List.mem_filterMap.mpr ⟨_, List.mem_of_getElem? placed, rfl⟩

/-- If the labels differ, then a jump leads to the label that was placed. -/
theorem idxOf?_label {program : List Instruction} (unique : (labelNames program).Nodup)
    {position : Nat} {name : String} (placed : program[position]? = some (.label name)) :
    program.idxOf? (.label name) = some position := by
  induction program generalizing position with
  | nil => simp at placed
  | cons instruction rest inductionHypothesis =>
      rw [List.idxOf?_cons]
      cases position with
      | zero =>
          have first : instruction = .label name := by simpa using placed
          simp [first]
      | succ position =>
          have later : rest[position]? = some (.label name) := by simpa using placed
          have membership := mem_labelNames_of_getElem? later
          have other : instruction ≠ .label name := by
            rintro rfl
            rw [labelNames_cons] at unique
            exact (List.nodup_cons.mp unique).1 membership
          have restUnique : (labelNames rest).Nodup :=
            unique.sublist ((List.sublist_cons_self instruction rest).filterMap _)
          simp [other, inductionHypothesis restUnique later]

end Vm

open Vm

/-! Expressions have no labels. -/

theorem Constant.code_plain (constant : Constant) :
    ∀ instruction ∈ constant.code, instruction.isPlain = true := by
  rcases constant with (_ | _) | _ | _ <;>
    simp [Constant.code, Instruction.isPlain, Instruction.pushThis]

theorem BinaryOp.code_plain (op : BinaryOp) : op.code.isPlain = true := by
  cases op <;> rfl

theorem stringCode_plain (text : String) :
    ∀ instruction ∈ stringCode text, instruction.isPlain = true := by
  intro instruction membership
  simp only [stringCode, List.mem_cons, List.mem_flatMap] at membership
  rcases membership with rfl | rfl | ⟨c, -, rfl | rfl | impossible⟩
  · rfl
  · rfl
  · rfl
  · rfl
  · simp at impossible

theorem Frame.target_plain {frame : Frame} {receiver : Option String} {name className : String}
    {code : List Instruction} (targeted : frame.target receiver name = .ok (className, code)) :
    ∀ instruction ∈ code, instruction.isPlain = true := by
  unfold Frame.target at targeted
  split at targeted
  · cases targeted
    split <;> simp [Instruction.isPlain, Instruction.pushThis]
  · split at targeted
    · cases targeted
      simp
    · split at targeted
      · contradiction
      · cases targeted
        simp [Instruction.isPlain]

section

variable {frame : Frame}

mutual

theorem Term.code_plain : (term : Term) → {code : List Instruction} →
    term.code frame = .ok code → ∀ instruction ∈ code, instruction.isPlain = true
  | .int _, _, generated => by
      cases generated
      simp [Instruction.isPlain]
  | .string text, _, generated => by
      cases generated
      exact stringCode_plain text
  | .constant value, _, generated => by
      cases generated
      exact value.code_plain
  | .var name, _, generated => by
      rw [Term.code] at generated
      obtain ⟨_, -, generated⟩ := bind_eq_ok_iff.mp generated
      cases generated
      simp [Instruction.isPlain]
  | .item array index, _, generated => by
      rw [Term.code] at generated
      obtain ⟨_, -, generated⟩ := bind_eq_ok_iff.mp generated
      obtain ⟨indexCode, indexGenerated, generated⟩ := bind_eq_ok_iff.mp generated
      cases generated
      have plain := Expression.code_plain index indexGenerated
      simp only [List.cons_append, List.forall_mem_cons, List.forall_mem_append]
      exact ⟨rfl, plain, by simp [Instruction.isPlain]⟩
  | .paren inner, _, generated => by
      rw [Term.code] at generated
      exact Expression.code_plain inner generated
  | .unary op operand, _, generated => by
      rw [Term.code] at generated
      obtain ⟨operandCode, operandGenerated, generated⟩ := bind_eq_ok_iff.mp generated
      cases generated
      simp only [List.forall_mem_append]
      exact ⟨operand.code_plain operandGenerated, by simp [Instruction.isPlain]⟩
  | .call call, _, generated => by
      rw [Term.code] at generated
      exact call.code_plain generated

theorem Expression.code_plain : (elements : List Element) → {code : List Instruction} →
    Expression.code frame elements = .ok code →
    ∀ instruction ∈ code, instruction.isPlain = true
  | [.term last], _, generated => by
      rw [Expression.code_singleton] at generated
      exact last.code_plain generated
  | .term first :: .op op :: rest, _, generated => by
      obtain ⟨firstCode, restCode, firstGenerated, restGenerated, rfl⟩ :=
        Expression.code_operation generated
      simp only [List.forall_mem_append]
      exact ⟨⟨first.code_plain firstGenerated, Expression.code_plain rest restGenerated⟩,
        by simp [op.code_plain]⟩
  | [], _, generated => by simp [Expression.code] at generated
  | .op _ :: _, _, generated => by simp [Expression.code] at generated
  | .term _ :: .term _ :: _, _, generated => by
      rcases Expression.code_cases generated with ⟨_, impossible⟩ | ⟨_, _, _, impossible⟩ <;>
        simp at impossible

theorem Call.code_plain : (call : Call) → {code : List Instruction} →
    call.code frame = .ok code → ∀ instruction ∈ code, instruction.isPlain = true
  | .mk receiver name arguments, _, generated => by
      rw [Call.code] at generated
      obtain ⟨⟨className, receiverCode⟩, targeted, generated⟩ := bind_eq_ok_iff.mp generated
      obtain ⟨-, -, generated⟩ := bind_eq_ok_iff.mp generated
      obtain ⟨argumentsCode, argumentsGenerated, generated⟩ := bind_eq_ok_iff.mp generated
      cases generated
      simp only [List.forall_mem_append]
      exact ⟨⟨Frame.target_plain targeted, Call.argumentsCode_plain arguments argumentsGenerated⟩,
        by simp [Instruction.isPlain]⟩

theorem Call.argumentsCode_plain : (arguments : List (List Element)) →
    {code : List Instruction} → Call.argumentsCode frame arguments = .ok code →
    ∀ instruction ∈ code, instruction.isPlain = true
  | [], _, generated => by
      cases generated
      simp
  | first :: rest, _, generated => by
      rw [Call.argumentsCode] at generated
      obtain ⟨firstCode, firstGenerated, generated⟩ := bind_eq_ok_iff.mp generated
      obtain ⟨restCode, restGenerated, generated⟩ := bind_eq_ok_iff.mp generated
      cases generated
      simp only [List.forall_mem_append]
      exact ⟨Expression.code_plain first firstGenerated,
        Call.argumentsCode_plain rest restGenerated⟩

end

end

/-! Statements. A label is known by its role and its number. -/

inductive LabelRole where
  | ifTrue
  | ifFalse
  | ifEnd
  | whileStart
  | whileEnd
  deriving DecidableEq

def LabelRole.word : LabelRole → String
  | .ifTrue => "IF_TRUE"
  | .ifFalse => "IF_FALSE"
  | .ifEnd => "IF_END"
  | .whileStart => "WHILE_EXP"
  | .whileEnd => "WHILE_END"

def labelName (role : LabelRole) (number : Nat) : String :=
  role.word ++ toString number

theorem labelName_inj {first second : LabelRole} {firstNumber secondNumber : Nat} :
    labelName first firstNumber = labelName second secondNumber ↔
      first = second ∧ firstNumber = secondNumber := by
  constructor
  · intro equal
    have same : first = second := by
      -- The words differ within their first nine characters.
      have chars := congrArg String.toList equal
      cases first <;> cases second <;> first | rfl | simp [labelName, LabelRole.word] at chars
    subst same
    refine ⟨rfl, Nat.repr_inj.mp ?_⟩
    exact (String.append_right_inj _).mp equal
  · rintro ⟨rfl, rfl⟩
    rfl

/-- The number that the next label of a role gets. -/
def Labels.next (labels : Labels) : LabelRole → Nat
  | .ifTrue => labels.nextIf
  | .ifFalse => labels.nextIf
  | .ifEnd => labels.nextIf
  | .whileStart => labels.nextWhile
  | .whileEnd => labels.nextWhile

/-- The label is one of those that are given out between two counts. -/
def Labels.Issued (before after : Labels) (name : String) : Prop :=
  ∃ role number, name = labelName role number ∧ before.next role ≤ number ∧
    number < after.next role

namespace Labels

variable {before middle after : Labels}

theorem not_issued {role : LabelRole} {number : Nat} (earlier : number < before.next role) :
    ¬ Issued before after (labelName role number) := by
  rintro ⟨other, otherNumber, equal, atLeast, -⟩
  obtain ⟨rfl, rfl⟩ := labelName_inj.mp equal
  omega

theorem Issued.disjoint {name : String} (early : Issued before middle name)
    (late : Issued middle after name) : False := by
  obtain ⟨role, number, rfl, -, below⟩ := early
  exact not_issued below late

theorem Issued.widen {outerBefore outerAfter : Labels} {name : String}
    (issued : Issued before after name)
    (low : ∀ role, outerBefore.next role ≤ before.next role)
    (high : ∀ role, after.next role ≤ outerAfter.next role) :
    Issued outerBefore outerAfter name := by
  obtain ⟨role, number, rfl, atLeast, below⟩ := issued
  exact ⟨role, number, rfl, Nat.le_trans (low role) atLeast, Nat.lt_of_lt_of_le below (high role)⟩

/-- The labels of the code differ, and all are given out between the two counts. -/
structure Spent (before after : Labels) (code : List Instruction) : Prop where
  le : ∀ role, before.next role ≤ after.next role
  nodup : (labelNames code).Nodup
  issued : ∀ name ∈ labelNames code, Issued before after name

theorem spent_of_plain (labels : Labels) {code : List Instruction}
    (unlabelled : labelNames code = []) : Spent labels labels code where
  le _ := Nat.le_refl _
  nodup := by simp [unlabelled]
  issued := by simp [unlabelled]

theorem Spent.append {first second : List Instruction} (spentFirst : Spent before middle first)
    (spentSecond : Spent middle after second) : Spent before after (first ++ second) where
  le role := Nat.le_trans (spentFirst.le role) (spentSecond.le role)
  nodup := by
    rw [labelNames_append]
    refine List.nodup_append.mpr ⟨spentFirst.nodup, spentSecond.nodup, ?_⟩
    rintro name inFirst _ inSecond rfl
    exact (spentFirst.issued name inFirst).disjoint (spentSecond.issued name inSecond)
  issued name membership := by
    rw [labelNames_append] at membership
    rcases List.mem_append.mp membership with inFirst | inSecond
    · exact (spentFirst.issued name inFirst).widen (fun _ => Nat.le_refl _) spentSecond.le
    · exact (spentSecond.issued name inSecond).widen spentFirst.le (fun _ => Nat.le_refl _)

/-- A statement gives one number to labels of its own before it gives out those inside. -/
theorem Spent.enclose (own : List LabelRole) {inside code : List Instruction}
    (spent : Spent middle after inside) (distinct : own.Nodup)
    (low : ∀ role, before.next role ≤ middle.next role)
    (taken : ∀ role ∈ own, before.next role < middle.next role)
    (arranged : (labelNames code).Perm
      (own.map (fun role => labelName role (before.next role)) ++ labelNames inside)) :
    Spent before after code where
  le role := Nat.le_trans (low role) (spent.le role)
  nodup := by
    refine arranged.nodup_iff.mpr (List.nodup_append.mpr ⟨?_, spent.nodup, ?_⟩)
    · refine List.Pairwise.map _ ?_ distinct
      intro first second different equal
      exact different (labelName_inj.mp equal).1
    · rintro name ownName _ insideName rfl
      obtain ⟨role, membership, rfl⟩ := List.mem_map.mp ownName
      exact not_issued (taken role membership) (spent.issued _ insideName)
  issued name membership := by
    rcases List.mem_append.mp (arranged.mem_iff.mp membership) with ownName | insideName
    · obtain ⟨role, ownRole, rfl⟩ := List.mem_map.mp ownName
      exact ⟨role, before.next role, rfl, Nat.le_refl _,
        Nat.lt_of_lt_of_le (taken role ownRole) (spent.le role)⟩
    · exact (spent.issued name insideName).widen low (fun _ => Nat.le_refl _)

end Labels

namespace Statement

open Labels

variable {frame : Frame}

mutual

theorem code_spent : (statement : Statement) → {labels after : Labels} →
    {code : List Instruction} → statement.code frame labels = .ok (code, after) →
    Spent labels after code
  | .let _ none value, labels, _, _, generated => by
      obtain ⟨_, _, valueCode, -, valueGenerated, rfl, rfl⟩ := code_let generated
      apply spent_of_plain
      simp [labelNames_eq_nil (Expression.code_plain value valueGenerated)]
  | .let _ (some index) value, labels, _, _, generated => by
      obtain ⟨_, _, indexCode, valueCode, -, indexGenerated, valueGenerated, rfl, rfl⟩ :=
        code_letItem generated
      apply spent_of_plain
      simp [labelNames_eq_nil (Expression.code_plain index indexGenerated),
        labelNames_eq_nil (Expression.code_plain value valueGenerated)]
  | .if condition thenBranch elseBranch, labels, after, _, generated => by
      obtain ⟨conditionCode, thenCode, middle, elseCode, conditionGenerated, thenGenerated,
        elseGenerated, rfl⟩ := code_if generated
      have spent := (codeAll_spent thenBranch thenGenerated).append
        (codeAll_spent elseBranch elseGenerated)
      have unlabelled := labelNames_eq_nil (Expression.code_plain condition conditionGenerated)
      refine spent.enclose [.ifTrue, .ifFalse, .ifEnd] (by decide) ?_ ?_ ?_
      · intro role
        cases role <;> simp [Labels.next]
      · simp [Labels.next]
      · apply List.perm_iff_count.mpr
        intro name
        simp only [labelNames_append, labelNames_cons, labelNames_nil, unlabelled, List.map_cons,
          List.map_nil, List.count_append, List.count_cons, List.count_nil, Labels.next,
          labelName, LabelRole.word]
        omega
  | .while condition body, labels, after, _, generated => by
      obtain ⟨conditionCode, bodyCode, conditionGenerated, bodyGenerated, rfl⟩ :=
        code_while generated
      have spent := codeAll_spent body bodyGenerated
      have unlabelled := labelNames_eq_nil (Expression.code_plain condition conditionGenerated)
      refine spent.enclose [.whileStart, .whileEnd] (by decide) ?_ ?_ ?_
      · intro role
        cases role <;> simp [Labels.next]
      · simp [Labels.next]
      · apply List.perm_iff_count.mpr
        intro name
        simp only [labelNames_append, labelNames_cons, labelNames_nil, unlabelled, List.map_cons,
          List.map_nil, List.count_append, List.count_cons, List.count_nil, Labels.next,
          labelName, LabelRole.word]
        omega
  | .do call, labels, _, _, generated => by
      obtain ⟨callCode, callGenerated, rfl, rfl⟩ := code_do generated
      apply spent_of_plain
      simp [labelNames_eq_nil (call.code_plain callGenerated)]
  | .return none, labels, _, _, generated => by
      cases generated
      exact spent_of_plain labels rfl
  | .return (some value), labels, _, _, generated => by
      obtain ⟨valueCode, valueGenerated, rfl, rfl⟩ := code_return generated
      apply spent_of_plain
      simp [labelNames_eq_nil (Expression.code_plain value valueGenerated)]

theorem codeAll_spent : (statements : List Statement) → {labels after : Labels} →
    {code : List Instruction} → codeAll frame statements labels = .ok (code, after) →
    Spent labels after code
  | [], labels, _, _, generated => by
      cases generated
      exact spent_of_plain labels rfl
  | first :: rest, labels, after, _, generated => by
      obtain ⟨firstCode, middle, restCode, firstGenerated, restGenerated, rfl⟩ :=
        codeAll_cons generated
      exact (code_spent first firstGenerated).append (codeAll_spent rest restGenerated)

end

end Statement

end ClassLang
