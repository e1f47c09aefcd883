import ClassLang.Proofs.Blocks

/-!
The subroutines of a class have their code one behind the other, and none of them has a part in
the code of another: places of variables and numbers of labels start anew in each.
-/

namespace ClassLang

open Vm

/-- Two groups of subroutines have their code one behind the other. -/
theorem Class.code_append (name : String) (members : List MemberDec)
    (signatures : SignatureTable) (first second : List Subroutine) :
    Class.code ⟨name, members, first ++ second⟩ signatures = do
      let firstCode ← Class.code ⟨name, members, first⟩ signatures
      let secondCode ← Class.code ⟨name, members, second⟩ signatures
      return firstCode ++ secondCode := by
  -- The table of a class does not depend on its subroutines.
  have sameTable : ∀ subroutines, SymbolTable.ofClass ⟨name, members, subroutines⟩ =
      SymbolTable.ofClass ⟨name, members, []⟩ := fun _ => rfl
  simp only [Class.code, sameTable]
  cases SymbolTable.ofClass ⟨name, members, []⟩ with
  | error error => rfl
  | ok table =>
      simp only [ok_bind, List.mapM_append]
      cases first.mapM (Subroutine.code name table signatures) with
      | error error => rfl
      | ok firstBlocks =>
          cases second.mapM (Subroutine.code name table signatures) with
          | error error => rfl
          | ok secondBlocks => simp

/-- The block of a subroutine is the code of its class without any other subroutine. -/
theorem Class.getElem?_blocks {name : String} {members : List MemberDec}
    {signatures : SignatureTable} {before after : List Subroutine} {subroutine : Subroutine}
    {code : List Instruction}
    (generated :
      Class.code ⟨name, members, before ++ subroutine :: after⟩ signatures = .ok code) :
    ∃ block, Class.code ⟨name, members, [subroutine]⟩ signatures = .ok block ∧
      (blocks code)[before.length]? = some block := by
  obtain ⟨table, built, matched⟩ := Class.blocks_code generated
  have placed : (before ++ subroutine :: after)[before.length]? = some subroutine := by simp
  obtain ⟨block, found, blockGenerated⟩ := forall₂_getElem? matched placed
  have alone : SymbolTable.ofClass ⟨name, members, [subroutine]⟩ = .ok table := built
  refine ⟨block, ?_, found⟩
  simp [Class.code, alone, blockGenerated]

/-- The code of a class with two groups of subroutines is the code with the first group and then
the code with the second, or the first error among them. So a subroutine has the same block
whatever stands before and behind it. -/
theorem Class.subroutines_compile_independently (name : String) (members : List MemberDec)
    (signatures : SignatureTable) :
    (∀ first second, Class.code ⟨name, members, first ++ second⟩ signatures =
      match Class.code ⟨name, members, first⟩ signatures,
        Class.code ⟨name, members, second⟩ signatures with
      | .error error, _ => .error error
      | .ok _, .error error => .error error
      | .ok firstCode, .ok secondCode => .ok (firstCode ++ secondCode)) ∧
    ∀ before subroutine after code,
      Class.code ⟨name, members, before ++ subroutine :: after⟩ signatures = .ok code →
      ∃ block, Class.code ⟨name, members, [subroutine]⟩ signatures = .ok block ∧
        (blocks code)[before.length]? = some block := by
  constructor
  · intro first second
    rw [Class.code_append]
    cases Class.code ⟨name, members, first⟩ signatures with
    | error error => rfl
    | ok firstCode =>
        cases Class.code ⟨name, members, second⟩ signatures with
        | error error => rfl
        | ok secondCode => rfl
  · intro before subroutine after code generated
    exact Class.getElem?_blocks generated

/-- A method with a branch, which reads a field, a parameter and a local variable. -/
def doorOpen : Subroutine where
  kind := .method
  returnType := .void
  name := "open"
  parameters := [⟨.primitive .int, "gap"⟩]
  locals := [⟨.primitive .int, ["old"]⟩]
  body := [
    .let "old" none [.term (.var "width")],
    .if [.term (.var "gap"), .op .greater, .term (.var "old")]
      [.let "width" none [.term (.var "gap")]] [],
    .return none]

def doorOpenCode : List Instruction :=
  [.function "Door.open" 1, .push .argument 0, .pop .pointer 0,
    .push .this 0, .pop .local 0,
    .push .argument 1, .push .local 0, .operate .gt,
    .ifGoto "IF_TRUE0", .goto "IF_FALSE0", .label "IF_TRUE0",
    .push .argument 1, .pop .this 0,
    .goto "IF_END0", .label "IF_FALSE0", .label "IF_END0",
    .push .constant 0, .return]

/-- A function with a branch and a parameter. -/
def doorKnock : Subroutine where
  kind := .function
  returnType := .value (.primitive .boolean)
  name := "knock"
  parameters := [⟨.primitive .int, "times"⟩]
  locals := []
  body := [
    .if [.term (.var "times")] [.return (some [.term (.constant (.boolean true))])] [],
    .return (some [.term (.constant (.boolean false))])]

def doorKnockCode : List Instruction :=
  [.function "Door.knock" 0,
    .push .argument 0, .ifGoto "IF_TRUE0", .goto "IF_FALSE0", .label "IF_TRUE0",
    .push .constant 0, .operate .not, .return,
    .goto "IF_END0", .label "IF_FALSE0", .label "IF_END0",
    .push .constant 0, .return]

def doorMembers : List MemberDec :=
  [⟨.field, .primitive .int, ["width"]⟩]

theorem door_blocks_in_either_order :
    Class.code ⟨"Door", doorMembers, [doorOpen, doorKnock]⟩ {} =
        .ok (doorOpenCode ++ doorKnockCode) ∧
      (blocks (doorOpenCode ++ doorKnockCode))[1]? = some doorKnockCode ∧
      Class.code ⟨"Door", doorMembers, [doorKnock, doorOpen]⟩ {} =
        .ok (doorKnockCode ++ doorOpenCode) ∧
      (blocks (doorKnockCode ++ doorOpenCode))[0]? = some doorKnockCode := by
  have openGenerated : Class.code ⟨"Door", doorMembers, [doorOpen]⟩ {} = .ok doorOpenCode := rfl
  have knockGenerated : Class.code ⟨"Door", doorMembers, [doorKnock]⟩ {} = .ok doorKnockCode :=
    rfl
  obtain ⟨joined, independent⟩ := Class.subroutines_compile_independently "Door" doorMembers {}
  have openFirst := joined [doorOpen] [doorKnock]
  have knockFirst := joined [doorKnock] [doorOpen]
  rw [openGenerated, knockGenerated] at openFirst knockFirst
  obtain ⟨second, alone, behind⟩ := independent [doorOpen] doorKnock [] _ openFirst
  obtain ⟨first, alone', ahead⟩ := independent [] doorKnock [doorOpen] _ knockFirst
  rw [knockGenerated] at alone alone'
  cases alone
  cases alone'
  exact ⟨openFirst, behind, knockFirst, ahead⟩

end ClassLang
