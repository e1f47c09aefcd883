import ClassLang.Proofs.Blocks
import ClassLang.Proofs.Simulation.Instruction

/-!
How the code of a subroutine changes the height of the stack.

The code of a term adds one value to whatever is on the stack and never reaches below it. The
code of a statement starts and ends on an empty stack. All jumps and labels stand where nothing
is on the stack, so reading the code once from its start gives every position its height.
-/

namespace ClassLang

namespace Vm

@[simp] def Operation.operands : Operation → Nat
  | .neg => 1
  | .not => 1
  | _ => 2

namespace Instruction

/-- How many values the instruction takes off the stack. -/
@[simp] def pops : Instruction → Nat
  | .pop .. => 1
  | .operate operation => operation.operands
  | .ifGoto _ => 1
  | .call _ arguments => arguments
  | .return => 1
  | _ => 0

/-- How many values the instruction puts on the stack. -/
@[simp] def pushes : Instruction → Nat
  | .push .. => 1
  | .operate _ => 1
  | .call .. => 1
  | _ => 0

/-- The height behind the instruction. -/
@[simp] def lift (height : Nat) (instruction : Instruction) : Nat :=
  height - instruction.pops + instruction.pushes

/-- The instruction finds the values that it takes. Where runs part or meet, and where they end,
there is nothing else on the stack. -/
@[simp] def Fits (height : Nat) : Instruction → Prop
  | .label _ => height = 0
  | .goto _ => height = 0
  | .function .. => height = 0
  | .ifGoto _ => height = 1
  | .return => height = 1
  | .push .. => True
  | .pop .. => 1 ≤ height
  | .operate operation => operation.operands ≤ height
  | .call _ arguments => arguments ≤ height

theorem Fits.pops_le {instruction : Instruction} {height : Nat}
    (fits : instruction.Fits height) : instruction.pops ≤ height := by
  cases instruction <;> simp_all

end Instruction

/-- Entered at the height `low`, the code is left at the height `high`, and each of its
instructions stands at a height that fits. -/
def Carries : List Instruction → (low high : Nat) → Prop
  | [], low, high => low = high
  | instruction :: rest, low, high =>
      instruction.Fits low ∧ Carries rest (instruction.lift low) high

@[simp] theorem carries_nil {low high : Nat} : Carries [] low high ↔ low = high := Iff.rfl

@[simp] theorem carries_cons {instruction : Instruction} {rest : List Instruction}
    {low high : Nat} :
    Carries (instruction :: rest) low high ↔
      instruction.Fits low ∧ Carries rest (instruction.lift low) high := Iff.rfl

theorem carries_append {first second : List Instruction} {low high : Nat} :
    Carries (first ++ second) low high ↔
      ∃ middle, Carries first low middle ∧ Carries second middle high := by
  induction first generalizing low with
  | nil => simp
  | cons instruction rest inductionHypothesis =>
      simp only [List.cons_append, carries_cons, inductionHypothesis]
      constructor
      · rintro ⟨fits, middle, carried, further⟩
        exact ⟨middle, ⟨fits, carried⟩, further⟩
      · rintro ⟨middle, ⟨fits, carried⟩, further⟩
        exact ⟨fits, middle, carried, further⟩

theorem Carries.append {first second : List Instruction} {low middle high : Nat}
    (carried : Carries first low middle) (further : Carries second middle high) :
    Carries (first ++ second) low high :=
  carries_append.mpr ⟨middle, carried, further⟩

/-- The code settles the height behind it. -/
theorem Carries.eq_foldl {code : List Instruction} {low high : Nat}
    (carried : Carries code low high) : high = code.foldl Instruction.lift low := by
  induction code generalizing low with
  | nil => exact carried.symm
  | cons instruction rest inductionHypothesis => exact inductionHypothesis carried.2

/-- The height at a position, when the code is entered on an empty stack and read in order. -/
def heightAt (code : List Instruction) (position : Nat) : Nat :=
  (code.take position).foldl Instruction.lift 0

@[simp] theorem heightAt_zero (code : List Instruction) : heightAt code 0 = 0 := rfl

theorem heightAt_succ {code : List Instruction} {position : Nat} {instruction : Instruction}
    (found : code[position]? = some instruction) :
    heightAt code (position + 1) = instruction.lift (heightAt code position) := by
  rw [heightAt, List.take_add_one, found, List.foldl_append]
  rfl

theorem Carries.fits {code : List Instruction} {high position : Nat} {instruction : Instruction}
    (carried : Carries code 0 high) (found : code[position]? = some instruction) :
    instruction.Fits (heightAt code position) := by
  obtain ⟨inside, rfl⟩ := List.getElem?_eq_some_iff.mp found
  have split : code.take position ++ code[position] :: code.drop (position + 1) = code := by
    rw [← List.drop_eq_getElem_cons inside, List.take_append_drop]
  rw [← split] at carried
  obtain ⟨middle, before, fits, -⟩ := carries_append.mp carried
  rw [heightAt, ← before.eq_foldl]
  exact fits

/-- Behind a piece of the code the height is what the piece makes of the height before it. -/
theorem CodeAt.heightAt_eq {program code : List Instruction} {position high : Nat}
    (placed : CodeAt program position code)
    (carried : Carries code (heightAt program position) high) :
    heightAt program (position + code.length) = high := by
  induction code generalizing position with
  | nil => exact carried
  | cons instruction rest inductionHypothesis =>
      have carriedOn : Carries rest (heightAt program (position + 1)) high := by
        rw [heightAt_succ placed.1]
        exact carried.2
      have reached := inductionHypothesis placed.2 carriedOn
      rw [List.length_cons, Nat.add_comm rest.length, ← Nat.add_assoc]
      exact reached

end Vm

open Vm

/-! Terms, calls and expressions. -/

theorem carries_push (segment : Segment) (index low : Nat) :
    Carries [.push segment index] low (low + 1) := by
  simp

/-- A call takes its arguments, and leaves its result in their place. -/
theorem carries_call (name : String) (low count : Nat) :
    Carries [.call name count] (low + count) (low + 1) := by
  simp

theorem Constant.code_carries (constant : Constant) (low : Nat) :
    Carries constant.code low (low + 1) := by
  rcases constant with (_ | _) | _ | _ <;>
    simp [Constant.code, Instruction.pushThis]

theorem UnaryOp.operation_carries (op : UnaryOp) (low : Nat) :
    Carries [.operate op.operation] (low + 1) (low + 1) := by
  cases op <;> simp [UnaryOp.operation]

/-- Whether by an instruction or by a call, an operator makes one value of two. -/
theorem BinaryOp.code_carries (op : BinaryOp) (low : Nat) :
    Carries [op.code] (low + 2) (low + 1) := by
  cases op <;> simp [BinaryOp.code]

theorem appendCode_carries (chars : List Char) (low : Nat) :
    Carries (chars.flatMap fun c => [.push .constant c.toNat, .call Library.appendChar 2])
      (low + 1) (low + 1) := by
  induction chars with
  | nil => simp
  | cons c rest inductionHypothesis =>
      rw [List.flatMap_cons]
      refine Carries.append ?_ inductionHypothesis
      exact (carries_push .constant c.toNat (low + 1)).append
        (carries_call Library.appendChar low 2)

theorem stringCode_carries (text : String) (low : Nat) :
    Carries (stringCode text) low (low + 1) := by
  have created : Carries [.push .constant text.length, .call Library.newString 1] low (low + 1) :=
    (carries_push .constant text.length low).append (carries_call Library.newString low 1)
  exact created.append (appendCode_carries text.toList low)

theorem Frame.target_carries {frame : Frame} {receiver : Option String} {name className : String}
    {code : List Instruction} (targeted : frame.target receiver name = .ok (className, code))
    (low : Nat) : Carries code low (low + code.length) := by
  unfold Frame.target at targeted
  split at targeted
  · cases targeted
    split
    · simp
    · exact carries_push .pointer 0 low
  · split at targeted
    · cases targeted
      simp
    · split at targeted
      · contradiction
      · cases targeted
        exact carries_push _ _ low

section

variable {frame : Frame}

mutual

theorem Term.code_carries : (term : Term) → {code : List Instruction} →
    term.code frame = .ok code → (low : Nat) → Carries code low (low + 1)
  | .int value, _, generated, low => by
      cases generated
      exact carries_push .constant value.toNat low
  | .string text, _, generated, low => by
      cases generated
      exact stringCode_carries text low
  | .constant value, _, generated, low => by
      cases generated
      exact value.code_carries low
  | .var name, _, generated, low => by
      obtain ⟨segment, place, -, rfl⟩ := Term.code_var generated
      exact carries_push segment place low
  | .item array index, _, generated, low => by
      obtain ⟨segment, place, indexCode, -, indexGenerated, rfl⟩ := Term.code_item generated
      have pushed := carries_push segment place low
      have indexed := Expression.code_carries index indexGenerated (low + 1)
      refine (pushed.append indexed).append ?_
      simp
  | .paren inner, _, generated, low => by
      rw [Term.code] at generated
      exact Expression.code_carries inner generated low
  | .unary op operand, _, generated, low => by
      obtain ⟨operandCode, operandGenerated, rfl⟩ := Term.code_unary generated
      exact (operand.code_carries operandGenerated low).append (op.operation_carries low)
  | .call call, _, generated, low => by
      rw [Term.code] at generated
      exact call.code_carries generated low

theorem Expression.code_carries : (elements : List Element) → {code : List Instruction} →
    Expression.code frame elements = .ok code → (low : Nat) → Carries code low (low + 1)
  | [.term last], _, generated, low => by
      rw [Expression.code_singleton] at generated
      exact last.code_carries generated low
  | .term first :: .op op :: rest, _, generated, low => by
      obtain ⟨firstCode, restCode, firstGenerated, restGenerated, rfl⟩ :=
        Expression.code_operation generated
      have both := (first.code_carries firstGenerated low).append
        (Expression.code_carries rest restGenerated (low + 1))
      exact both.append (op.code_carries low)
  | [], _, generated, _ => by simp [Expression.code] at generated
  | .op _ :: _, _, generated, _ => by simp [Expression.code] at generated
  | .term _ :: .term _ :: _, _, generated, _ => by
      rcases Expression.code_cases generated with ⟨_, impossible⟩ | ⟨_, _, _, impossible⟩ <;>
        simp at impossible

/-- A call takes the receiver and the arguments that its own code has pushed. -/
theorem Call.code_carries : (call : Call) → {code : List Instruction} →
    call.code frame = .ok code → (low : Nat) → Carries code low (low + 1)
  | .mk receiver name arguments, _, generated, low => by
      obtain ⟨className, receiverCode, suppliedCode, targeted, -, supplied, rfl⟩ :=
        Call.code_mk generated
      have pushed := (Frame.target_carries targeted low).append
        (Call.argumentsCode_carries arguments supplied _)
      rw [Nat.add_assoc] at pushed
      exact pushed.append (carries_call _ low _)

theorem Call.argumentsCode_carries : (arguments : List (List Element)) →
    {code : List Instruction} → Call.argumentsCode frame arguments = .ok code → (low : Nat) →
    Carries code low (low + arguments.length)
  | [], _, generated, low => by
      cases generated
      simp
  | first :: rest, _, generated, low => by
      obtain ⟨firstCode, restCode, firstGenerated, restGenerated, rfl⟩ :=
        Call.argumentsCode_cons generated
      have carried := (Expression.code_carries first firstGenerated low).append
        (Call.argumentsCode_carries rest restGenerated (low + 1))
      rw [List.length_cons, Nat.add_comm rest.length, ← Nat.add_assoc]
      exact carried

end

/-! Statements. -/

namespace Statement

mutual

theorem code_carries : (statement : Statement) → {labels after : Labels} →
    {code : List Instruction} → statement.code frame labels = .ok (code, after) →
    Carries code 0 0
  | .let _ none value, _, _, _, generated => by
      obtain ⟨segment, place, valueCode, -, valueGenerated, rfl, -⟩ := code_let generated
      refine (Expression.code_carries value valueGenerated 0).append ?_
      simp
  | .let _ (some index) value, _, _, _, generated => by
      obtain ⟨segment, place, indexCode, valueCode, -, indexGenerated, valueGenerated, rfl, -⟩ :=
        code_letItem generated
      have address : Carries (.push segment place :: indexCode ++ [.operate .add]) 0 1 :=
        ((carries_push segment place 0).append
          (Expression.code_carries index indexGenerated 1)).append
          (BinaryOp.code_carries .add 0)
      refine (address.append (Expression.code_carries value valueGenerated 1)).append ?_
      simp
  | .if condition thenBranch elseBranch, labels, _, _, generated => by
      obtain ⟨conditionCode, thenCode, middle, elseCode, conditionGenerated, thenGenerated,
        elseGenerated, rfl⟩ := code_if generated
      refine carries_append.mpr ⟨0, ?_, by simp⟩
      refine Carries.append ?_ (codeAll_carries elseBranch elseGenerated)
      refine carries_append.mpr ⟨0, ?_, by simp⟩
      refine Carries.append ?_ (codeAll_carries thenBranch thenGenerated)
      exact (Expression.code_carries condition conditionGenerated 0).append (by simp)
  | .while condition body, labels, _, _, generated => by
      obtain ⟨conditionCode, bodyCode, conditionGenerated, bodyGenerated, rfl⟩ :=
        code_while generated
      refine carries_append.mpr ⟨0, ?_, by simp⟩
      refine Carries.append ?_ (codeAll_carries body bodyGenerated)
      refine carries_append.mpr ⟨1, ?_, by simp⟩
      exact ⟨rfl, Expression.code_carries condition conditionGenerated 0⟩
  | .do call, _, _, _, generated => by
      obtain ⟨callCode, callGenerated, rfl, -⟩ := code_do generated
      refine (call.code_carries callGenerated 0).append ?_
      simp
  | .return none, _, _, _, generated => by
      cases generated
      simp
  | .return (some value), _, _, _, generated => by
      obtain ⟨valueCode, valueGenerated, rfl, -⟩ := code_return generated
      refine (Expression.code_carries value valueGenerated 0).append ?_
      simp

theorem codeAll_carries : (statements : List Statement) → {labels after : Labels} →
    {code : List Instruction} → codeAll frame statements labels = .ok (code, after) →
    Carries code 0 0
  | [], _, _, _, generated => by
      cases generated
      simp
  | first :: rest, _, _, _, generated => by
      obtain ⟨firstCode, middle, restCode, firstGenerated, restGenerated, rfl⟩ :=
        codeAll_cons generated
      exact (code_carries first firstGenerated).append (codeAll_carries rest restGenerated)

end

end Statement

end

end ClassLang
