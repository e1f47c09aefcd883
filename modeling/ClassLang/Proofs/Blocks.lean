import ClassLang.Proofs.Labels
import Mathlib.Data.List.SplitBy

/-!
The code of a class consists of one block for each subroutine, from the instruction that heads
the subroutine up to the next such instruction.
-/

namespace ClassLang

namespace Vm

def Instruction.isHead : Instruction → Bool
  | .function .. => true
  | _ => false

/-- Cut the code in front of every instruction that heads a subroutine. -/
def blocks (code : List Instruction) : List (List Instruction) :=
  code.splitBy fun _ next => !next.isHead

def Headless (code : List Instruction) : Prop :=
  ∀ instruction ∈ code, instruction.isHead = false

@[simp] theorem headless_nil : Headless [] := by simp [Headless]

@[simp] theorem headless_cons {instruction : Instruction} {rest : List Instruction} :
    Headless (instruction :: rest) ↔ instruction.isHead = false ∧ Headless rest := by
  simp [Headless]

@[simp] theorem headless_append {first second : List Instruction} :
    Headless (first ++ second) ↔ Headless first ∧ Headless second := by
  simp [Headless, or_imp, forall_and]

theorem headless_of_plain {code : List Instruction}
    (plain : ∀ instruction ∈ code, instruction.isPlain = true) : Headless code := by
  intro instruction membership
  have plainInstruction := plain instruction membership
  cases instruction with
  | function name count => simp [Instruction.isPlain] at plainInstruction
  | _ => rfl

/-- A head, and no other behind it. -/
def IsBlock (block : List Instruction) : Prop :=
  ∃ name count rest, block = .function name count :: rest ∧ Headless rest

theorem blocks_flatten {parts : List (List Instruction)} (each : ∀ part ∈ parts, IsBlock part) :
    blocks parts.flatten = parts := by
  refine List.splitBy_flatten ?_ ?_ ?_
  · intro empty
    obtain ⟨name, count, rest, impossible, -⟩ := each [] empty
    simp at impossible
  · intro part membership
    obtain ⟨name, count, rest, rfl, others⟩ := each part membership
    refine List.Pairwise.isChain (List.pairwise_cons.mpr ⟨?_, ?_⟩)
    · intro next inRest
      simp [others next inRest]
    · refine List.pairwise_of_forall_mem_list ?_
      intro before _ next inRest
      simp [others next inRest]
  · refine List.Pairwise.isChain (List.pairwise_of_forall_mem_list ?_)
    intro before inBefore next inNext
    obtain ⟨name, count, rest, rfl, -⟩ := each before inBefore
    obtain ⟨nextName, nextCount, nextRest, rfl, -⟩ := each next inNext
    exact ⟨by simp, by simp, rfl⟩

end Vm

open Vm

namespace Statement

variable {frame : Frame}

mutual

theorem code_headless : (statement : Statement) → {labels after : Labels} →
    {code : List Instruction} → statement.code frame labels = .ok (code, after) → Headless code
  | .let _ none value, _, _, _, generated => by
      obtain ⟨_, _, valueCode, -, valueGenerated, rfl, -⟩ := code_let generated
      have valueHeadless := headless_of_plain (Expression.code_plain value valueGenerated)
      simp [valueHeadless, Instruction.isHead]
  | .let _ (some index) value, _, _, _, generated => by
      obtain ⟨_, _, indexCode, valueCode, -, indexGenerated, valueGenerated, rfl, -⟩ :=
        code_letItem generated
      have indexHeadless := headless_of_plain (Expression.code_plain index indexGenerated)
      have valueHeadless := headless_of_plain (Expression.code_plain value valueGenerated)
      simp [indexHeadless, valueHeadless, Instruction.isHead]
  | .if condition thenBranch elseBranch, _, _, _, generated => by
      obtain ⟨conditionCode, thenCode, middle, elseCode, conditionGenerated, thenGenerated,
        elseGenerated, rfl⟩ := code_if generated
      have conditionHeadless :=
        headless_of_plain (Expression.code_plain condition conditionGenerated)
      simp [conditionHeadless, codeAll_headless thenBranch thenGenerated,
        codeAll_headless elseBranch elseGenerated, Instruction.isHead]
  | .while condition body, _, _, _, generated => by
      obtain ⟨conditionCode, bodyCode, conditionGenerated, bodyGenerated, rfl⟩ :=
        code_while generated
      have conditionHeadless :=
        headless_of_plain (Expression.code_plain condition conditionGenerated)
      simp [conditionHeadless, codeAll_headless body bodyGenerated, Instruction.isHead]
  | .do call, _, _, _, generated => by
      obtain ⟨callCode, callGenerated, rfl, -⟩ := code_do generated
      simp [headless_of_plain (call.code_plain callGenerated), Instruction.isHead]
  | .return none, _, _, _, generated => by
      cases generated
      simp [Instruction.isHead]
  | .return (some value), _, _, _, generated => by
      obtain ⟨valueCode, valueGenerated, rfl, -⟩ := code_return generated
      have valueHeadless := headless_of_plain (Expression.code_plain value valueGenerated)
      simp [valueHeadless, Instruction.isHead]

theorem codeAll_headless : (statements : List Statement) → {labels after : Labels} →
    {code : List Instruction} → codeAll frame statements labels = .ok (code, after) →
    Headless code
  | [], _, _, _, generated => by
      cases generated
      simp
  | first :: rest, _, _, _, generated => by
      obtain ⟨firstCode, middle, restCode, firstGenerated, restGenerated, rfl⟩ :=
        codeAll_cons generated
      exact headless_append.mpr
        ⟨code_headless first firstGenerated, codeAll_headless rest restGenerated⟩

end

end Statement

theorem SubroutineKind.entryCode_plain (kind : SubroutineKind) (fields : Nat) :
    ∀ instruction ∈ kind.entryCode fields, instruction.isPlain = true := by
  cases kind <;> simp [SubroutineKind.entryCode, Instruction.isPlain]

theorem Subroutine.code_isBlock {className : String} {members : SymbolTable}
    {signatures : SignatureTable} {subroutine : Subroutine} {block : List Instruction}
    (generated : subroutine.code className members signatures = .ok block) : IsBlock block := by
  obtain ⟨own, bodyCode, after, -, bodyGenerated, rfl⟩ := Subroutine.code_eq_ok generated
  refine ⟨_, _, _, rfl, headless_append.mpr ⟨?_, ?_⟩⟩
  · exact headless_of_plain (subroutine.kind.entryCode_plain _)
  · exact Statement.codeAll_headless subroutine.body bodyGenerated

/-- Block after block, the code of a class is the code of its subroutines. -/
theorem Class.blocks_code {cls : Class} {signatures : SignatureTable} {code : List Instruction}
    (generated : cls.code signatures = .ok code) :
    ∃ members, SymbolTable.ofClass cls = .ok members ∧
      List.Forall₂ (fun subroutine block =>
        subroutine.code cls.name members signatures = .ok block) cls.subroutines
        (blocks code) := by
  rw [Class.code] at generated
  obtain ⟨members, built, generated⟩ := bind_eq_ok_iff.mp generated
  obtain ⟨parts, produced, generated⟩ := bind_eq_ok_iff.mp generated
  cases generated
  have matched := forall₂_of_mapM_eq_ok produced
  refine ⟨members, built, ?_⟩
  rw [blocks_flatten]
  · exact matched
  · intro part membership
    obtain ⟨position, below, rfl⟩ := List.mem_iff_getElem.mp membership
    exact Subroutine.code_isBlock (matched.get (by rw [matched.length_eq]; exact below) below)

end ClassLang
