import ClassLang.Proofs.Blocks
import ClassLang.Proofs.Places

/-!
The memory that generated code touches. An instruction in the body of a subroutine works on the
place of a variable or on one of a few fixed cells. All of them exist, and the object that a
constructor or method works on is chosen on entry and stays.
-/

namespace ClassLang

open Vm

/-- What an instruction in the body of a subroutine may read and write. -/
def Frame.Admits (frame : Frame) : Instruction → Prop
  | .push segment index =>
      segment = .constant ∨ (segment, index) ∈ [(.pointer, 0), (.that, 0), (.temp, 0)] ∨
        ∃ name, frame.resolve name = .ok (segment, index)
  | .pop segment index =>
      (segment, index) ∈ [(.pointer, 1), (.that, 0), (.temp, 0)] ∨
        ∃ name, frame.resolve name = .ok (segment, index)
  | _ => True

section

variable {frame : Frame}

theorem Frame.admits_push {name : String} {segment : Segment} {index : Nat}
    (resolved : frame.resolve name = .ok (segment, index)) :
    frame.Admits (.push segment index) :=
  .inr (.inr ⟨name, resolved⟩)

theorem Frame.admits_pop {name : String} {segment : Segment} {index : Nat}
    (resolved : frame.resolve name = .ok (segment, index)) :
    frame.Admits (.pop segment index) :=
  .inr ⟨name, resolved⟩

theorem Constant.code_admitted (frame : Frame) (constant : Constant) :
    ∀ instruction ∈ constant.code, frame.Admits instruction := by
  rcases constant with (_ | _) | _ | _ <;>
    simp [Constant.code, Frame.Admits, Instruction.pushThis]

theorem BinaryOp.code_admitted (frame : Frame) (op : BinaryOp) : frame.Admits op.code := by
  cases op <;> trivial

theorem stringCode_admitted (frame : Frame) (text : String) :
    ∀ instruction ∈ stringCode text, frame.Admits instruction := by
  intro instruction membership
  simp only [stringCode, List.mem_cons, List.mem_flatMap, List.not_mem_nil, or_false] at membership
  rcases membership with rfl | rfl | ⟨c, -, rfl | rfl⟩ <;> simp [Frame.Admits]

theorem Frame.target_admitted {receiver : Option String} {name className : String}
    {code : List Instruction} (targeted : frame.target receiver name = .ok (className, code)) :
    ∀ instruction ∈ code, frame.Admits instruction := by
  unfold Frame.target at targeted
  split at targeted
  · cases targeted
    split <;> simp [Frame.Admits, Instruction.pushThis]
  · split at targeted
    · cases targeted
      simp
    · next receiver binding bound =>
      split at targeted
      · contradiction
      · cases targeted
        have resolved := Frame.resolve_eq_ok_iff.mpr ⟨binding, bound, rfl⟩
        simpa using Frame.admits_push resolved

mutual

theorem Term.code_admitted : (term : Term) → {code : List Instruction} →
    term.code frame = .ok code → ∀ instruction ∈ code, frame.Admits instruction
  | .int _, _, generated => by
      cases generated
      simp [Frame.Admits]
  | .string text, _, generated => by
      cases generated
      exact stringCode_admitted frame text
  | .constant value, _, generated => by
      cases generated
      exact value.code_admitted frame
  | .var name, _, generated => by
      obtain ⟨segment, place, resolved, rfl⟩ := Term.code_var generated
      simpa using Frame.admits_push resolved
  | .item array index, _, generated => by
      obtain ⟨segment, place, indexCode, resolved, indexGenerated, rfl⟩ :=
        Term.code_item generated
      simp only [List.cons_append, List.forall_mem_cons, List.forall_mem_append]
      exact ⟨Frame.admits_push resolved, Expression.code_admitted index indexGenerated,
        by simp [Frame.Admits]⟩
  | .paren inner, _, generated => by
      rw [Term.code] at generated
      exact Expression.code_admitted inner generated
  | .unary op operand, _, generated => by
      obtain ⟨operandCode, operandGenerated, rfl⟩ := Term.code_unary generated
      rw [List.forall_mem_append]
      exact ⟨operand.code_admitted operandGenerated, by simp [Frame.Admits]⟩
  | .call call, _, generated => by
      rw [Term.code] at generated
      exact call.code_admitted generated

theorem Expression.code_admitted : (elements : List Element) → {code : List Instruction} →
    Expression.code frame elements = .ok code → ∀ instruction ∈ code, frame.Admits instruction
  | [.term last], _, generated => by
      rw [Expression.code_singleton] at generated
      exact last.code_admitted generated
  | .term first :: .op op :: rest, _, generated => by
      obtain ⟨firstCode, restCode, firstGenerated, restGenerated, rfl⟩ :=
        Expression.code_operation generated
      simp only [List.forall_mem_append]
      exact ⟨⟨first.code_admitted firstGenerated, Expression.code_admitted rest restGenerated⟩,
        by simpa using op.code_admitted frame⟩
  | [], _, generated => by simp [Expression.code] at generated
  | .op _ :: _, _, generated => by simp [Expression.code] at generated
  | .term _ :: .term _ :: _, _, generated => by
      rcases Expression.code_cases generated with ⟨_, impossible⟩ | ⟨_, _, _, impossible⟩ <;>
        simp at impossible

theorem Call.code_admitted : (call : Call) → {code : List Instruction} →
    call.code frame = .ok code → ∀ instruction ∈ code, frame.Admits instruction
  | .mk receiver name arguments, _, generated => by
      obtain ⟨className, receiverCode, suppliedCode, targeted, -, supplied, rfl⟩ :=
        Call.code_mk generated
      simp only [List.forall_mem_append]
      exact ⟨⟨Frame.target_admitted targeted, Call.argumentsCode_admitted arguments supplied⟩,
        by simp [Frame.Admits]⟩

theorem Call.argumentsCode_admitted : (arguments : List (List Element)) →
    {code : List Instruction} → Call.argumentsCode frame arguments = .ok code →
    ∀ instruction ∈ code, frame.Admits instruction
  | [], _, generated => by
      cases generated
      simp
  | first :: rest, _, generated => by
      obtain ⟨firstCode, restCode, firstGenerated, restGenerated, rfl⟩ :=
        Call.argumentsCode_cons generated
      rw [List.forall_mem_append]
      exact ⟨Expression.code_admitted first firstGenerated,
        Call.argumentsCode_admitted rest restGenerated⟩

end

namespace Statement

mutual

theorem code_admitted : (statement : Statement) → {labels after : Labels} →
    {code : List Instruction} → statement.code frame labels = .ok (code, after) →
    ∀ instruction ∈ code, frame.Admits instruction
  | .let _ none value, _, _, _, generated => by
      obtain ⟨segment, place, valueCode, resolved, valueGenerated, rfl, -⟩ := code_let generated
      rw [List.forall_mem_append]
      exact ⟨Expression.code_admitted value valueGenerated,
        by simpa using Frame.admits_pop resolved⟩
  | .let _ (some index) value, _, _, _, generated => by
      obtain ⟨segment, place, indexCode, valueCode, resolved, indexGenerated, valueGenerated, rfl,
        -⟩ := code_letItem generated
      simp only [List.cons_append, List.forall_mem_cons, List.forall_mem_append]
      exact ⟨Frame.admits_push resolved, ⟨⟨Expression.code_admitted index indexGenerated,
        by simp [Frame.Admits]⟩, Expression.code_admitted value valueGenerated⟩,
        by simp [Frame.Admits]⟩
  | .if condition thenBranch elseBranch, _, _, _, generated => by
      obtain ⟨conditionCode, thenCode, middle, elseCode, conditionGenerated, thenGenerated,
        elseGenerated, rfl⟩ := code_if generated
      have conditionAdmitted := Expression.code_admitted condition conditionGenerated
      have thenAdmitted := codeAll_admitted thenBranch thenGenerated
      have elseAdmitted := codeAll_admitted elseBranch elseGenerated
      simp only [List.forall_mem_append]
      exact ⟨⟨⟨⟨⟨conditionAdmitted, by simp [Frame.Admits]⟩, thenAdmitted⟩,
        by simp [Frame.Admits]⟩, elseAdmitted⟩, by simp [Frame.Admits]⟩
  | .while condition body, _, _, _, generated => by
      obtain ⟨conditionCode, bodyCode, conditionGenerated, bodyGenerated, rfl⟩ :=
        code_while generated
      have conditionAdmitted := Expression.code_admitted condition conditionGenerated
      have bodyAdmitted := codeAll_admitted body bodyGenerated
      simp only [List.cons_append, List.forall_mem_cons, List.forall_mem_append]
      exact ⟨trivial, ⟨⟨conditionAdmitted, by simp [Frame.Admits]⟩, bodyAdmitted⟩,
        by simp [Frame.Admits]⟩
  | .do call, _, _, _, generated => by
      obtain ⟨callCode, callGenerated, rfl, -⟩ := code_do generated
      rw [List.forall_mem_append]
      exact ⟨call.code_admitted callGenerated, by simp [Frame.Admits]⟩
  | .return none, _, _, _, generated => by
      cases generated
      simp [Frame.Admits]
  | .return (some value), _, _, _, generated => by
      obtain ⟨valueCode, valueGenerated, rfl, -⟩ := code_return generated
      rw [List.forall_mem_append]
      exact ⟨Expression.code_admitted value valueGenerated, by simp [Frame.Admits]⟩

theorem codeAll_admitted : (statements : List Statement) → {labels after : Labels} →
    {code : List Instruction} → codeAll frame statements labels = .ok (code, after) →
    ∀ instruction ∈ code, frame.Admits instruction
  | [], _, _, _, generated => by
      cases generated
      simp
  | first :: rest, _, _, _, generated => by
      obtain ⟨firstCode, middle, restCode, firstGenerated, restGenerated, rfl⟩ :=
        codeAll_cons generated
      rw [List.forall_mem_append]
      exact ⟨code_admitted first firstGenerated, codeAll_admitted rest restGenerated⟩

end

end Statement

end

/-- The cells that each segment has for a subroutine. The first argument of a method is its
receiver. -/
def Subroutine.HasCell (cls : Class) (subroutine : Subroutine) (index : Nat) : Segment → Prop
  | .constant => True
  | .local => index < subroutine.localNames.length
  | .argument =>
      index < subroutine.parameters.length + if subroutine.kind = .method then 1 else 0
  | .this => index < (cls.memberNames .field).length
  | .static => index < (cls.memberNames .static).length
  | .that => index = 0
  | .temp => index = 0
  | .pointer => index = 0 ∨ index = 1

section

variable {cls : Class} {subroutine : Subroutine} {members own : SymbolTable}
  {signatures : SignatureTable}

/-- A variable has a cell, which is neither the object nor the receiver of a method. -/
theorem Subroutine.hasCell_of_resolve (recordsMembers : members.Records cls.declarations)
    (recordsOwn : own.Records subroutine.declarations) {name : String} {segment : Segment}
    {index : Nat}
    (resolved : (subroutine.frame cls.name signatures members own).resolve name =
      .ok (segment, index)) :
    subroutine.HasCell cls index segment ∧ segment ≠ .constant ∧ segment ≠ .pointer ∧
      (subroutine.kind = .method → (segment, index) ≠ (.argument, 0)) := by
  obtain ⟨⟨type, storage, number⟩, numbered, located⟩ :=
    Subroutine.numbered_of_resolve recordsMembers recordsOwn resolved
  have below := (List.getElem?_eq_some_iff.mp numbered).1
  rw [namesIn_append, List.length_append, subroutine.namesIn_declarations,
    cls.namesIn_declarations] at below
  simp only [Frame.location, Subroutine.frame, Prod.mk.injEq] at located
  obtain ⟨rfl, rfl⟩ := located
  -- The receiver moves the parameters of a method up by one and adds one cell for itself.
  cases storage with
  | argument =>
      by_cases method : subroutine.kind = .method <;>
        simp_all [Subroutine.HasCell, Segment.ofStorage]
  | _ => simp_all [Subroutine.HasCell, Segment.ofStorage]

theorem Subroutine.hasCell_of_push (recordsMembers : members.Records cls.declarations)
    (recordsOwn : own.Records subroutine.declarations) {segment : Segment} {index : Nat}
    (admitted : (subroutine.frame cls.name signatures members own).Admits (.push segment index)) :
    subroutine.HasCell cls index segment := by
  rcases admitted with rfl | fixed | ⟨name, resolved⟩
  · trivial
  · simp only [List.mem_cons, List.not_mem_nil, or_false, Prod.mk.injEq] at fixed
    rcases fixed with ⟨rfl, rfl⟩ | ⟨rfl, rfl⟩ | ⟨rfl, rfl⟩ <;> simp [Subroutine.HasCell]
  · exact (Subroutine.hasCell_of_resolve recordsMembers recordsOwn resolved).1

theorem Subroutine.hasCell_of_pop (recordsMembers : members.Records cls.declarations)
    (recordsOwn : own.Records subroutine.declarations) {segment : Segment} {index : Nat}
    (admitted : (subroutine.frame cls.name signatures members own).Admits (.pop segment index)) :
    subroutine.HasCell cls index segment ∧ segment ≠ .constant ∧
      (segment, index) ≠ (.pointer, 0) ∧
      (subroutine.kind = .method → (segment, index) ≠ (.argument, 0)) := by
  rcases admitted with fixed | ⟨name, resolved⟩
  · simp only [List.mem_cons, List.not_mem_nil, or_false, Prod.mk.injEq] at fixed
    rcases fixed with ⟨rfl, rfl⟩ | ⟨rfl, rfl⟩ | ⟨rfl, rfl⟩ <;> simp [Subroutine.HasCell]
  · obtain ⟨cell, noConstant, noPointer, noReceiver⟩ :=
      Subroutine.hasCell_of_resolve recordsMembers recordsOwn resolved
    exact ⟨cell, noConstant, fun same => noPointer (Prod.mk.inj same).1, noReceiver⟩

theorem Subroutine.hasCell_of_push_entry (cls : Class) (subroutine : Subroutine) {fields : Nat}
    {segment : Segment} {index : Nat}
    (pushed : .push segment index ∈ subroutine.kind.entryCode fields) :
    subroutine.HasCell cls index segment := by
  cases kind : subroutine.kind with
  | constructor =>
      have constant : segment = .constant ∧ index = fields := by
        simpa [kind, SubroutineKind.entryCode] using pushed
      simp [constant, Subroutine.HasCell]
  | method =>
      have first : segment = .argument ∧ index = 0 := by
        simpa [kind, SubroutineKind.entryCode] using pushed
      simp [first, kind, Subroutine.HasCell]
  | function => simp [kind, SubroutineKind.entryCode] at pushed

theorem SubroutineKind.pop_entryCode {kind : SubroutineKind} {fields : Nat} {segment : Segment}
    {index : Nat} (popped : .pop segment index ∈ kind.entryCode fields) :
    segment = .pointer ∧ index = 0 ∧ kind ≠ .function := by
  cases kind <;> simp_all [SubroutineKind.entryCode]

end

/-- The block of a subroutine uses only cells that the subroutine has, and chooses its object at
most once, on entry. -/
structure Subroutine.Confined (cls : Class) (subroutine : Subroutine) (block : List Instruction) :
    Prop where
  shape : ∃ body, block =
      .function (qualifiedName cls.name subroutine.name) subroutine.localNames.length ::
        subroutine.kind.entryCode (cls.memberNames .field).length ++ body ∧
    .pop .pointer 0 ∉ body
  read : ∀ segment index, .push segment index ∈ block → subroutine.HasCell cls index segment
  written : ∀ segment index, .pop segment index ∈ block →
    subroutine.HasCell cls index segment ∧ segment ≠ .constant
  receiver : subroutine.kind = .method → .pop .argument 0 ∉ block
  object : subroutine.kind = .function → .pop .pointer 0 ∉ block

theorem mem_entry_or_body {head instruction : Instruction} {entry body : List Instruction}
    (membership : instruction ∈ head :: entry ++ body) (other : instruction ≠ head) :
    instruction ∈ entry ∨ instruction ∈ body := by
  simpa [other] using membership

theorem Subroutine.code_confined {cls : Class} {subroutine : Subroutine} {members : SymbolTable}
    {signatures : SignatureTable} {block : List Instruction}
    (membersBuilt : SymbolTable.ofClass cls = .ok members)
    (generated : subroutine.code cls.name members signatures = .ok block) :
    subroutine.Confined cls block := by
  obtain ⟨own, bodyCode, after, ownBuilt, bodyGenerated, rfl⟩ := Subroutine.code_eq_ok generated
  have recordsMembers := SymbolTable.records_ofClass membersBuilt
  have recordsOwn := SymbolTable.records_ofSubroutine ownBuilt
  have fields : members.count .field = (cls.memberNames .field).length := by
    rw [recordsMembers.count, ← length_namesIn, cls.namesIn_declarations]
  have locals : own.count .local = subroutine.localNames.length := by
    rw [recordsOwn.count, ← length_namesIn, subroutine.namesIn_declarations]
  -- What the body admits settles everything behind the entry code, which is read off directly.
  have admitted : ∀ instruction ∈ bodyCode,
      (subroutine.frame cls.name signatures members own).Admits instruction :=
    Statement.codeAll_admitted subroutine.body bodyGenerated
  have popped : ∀ segment index, .pop segment index ∈ bodyCode →
      subroutine.HasCell cls index segment ∧ segment ≠ .constant ∧
        (segment, index) ≠ (.pointer, 0) ∧
        (subroutine.kind = .method → (segment, index) ≠ (.argument, 0)) :=
    fun segment index membership =>
      Subroutine.hasCell_of_pop recordsMembers recordsOwn (admitted _ membership)
  rw [fields, locals]
  constructor
  · exact ⟨bodyCode, rfl, fun membership => (popped _ _ membership).2.2.1 rfl⟩
  · intro segment index membership
    rcases mem_entry_or_body membership (by simp) with onEntry | inBody
    · exact Subroutine.hasCell_of_push_entry cls subroutine onEntry
    · exact Subroutine.hasCell_of_push recordsMembers recordsOwn (admitted _ inBody)
  · intro segment index membership
    rcases mem_entry_or_body membership (by simp) with onEntry | inBody
    · obtain ⟨rfl, rfl, -⟩ := SubroutineKind.pop_entryCode onEntry
      exact ⟨.inl rfl, by simp⟩
    · exact ⟨(popped _ _ inBody).1, (popped _ _ inBody).2.1⟩
  · intro method membership
    rcases mem_entry_or_body membership (by simp) with onEntry | inBody
    · exact absurd (SubroutineKind.pop_entryCode onEntry).1 (by simp)
    · exact (popped _ _ inBody).2.2.2 method rfl
  · intro function membership
    rcases mem_entry_or_body membership (by simp) with onEntry | inBody
    · exact (SubroutineKind.pop_entryCode onEntry).2.2 function
    · exact (popped _ _ inBody).2.2.1 rfl

/-- Every access of the code of a class is in range, and no body changes its object. -/
theorem Class.code_accesses_own_cells {cls : Class} {signatures : SignatureTable}
    {code : List Instruction} (generated : cls.code signatures = .ok code) :
    List.Forall₂ (Subroutine.Confined cls) cls.subroutines (blocks code) := by
  obtain ⟨members, membersBuilt, matched⟩ := Class.blocks_code generated
  exact matched.imp fun _ _ blockGenerated =>
    Subroutine.code_confined membersBuilt blockGenerated

/-- A subroutine of each kind. Between them they use every segment. -/
def deck : Class where
  name := "Deck"
  members := [⟨.static, .primitive .int, ["made"]⟩, ⟨.field, .object "Array", ["cards"]⟩,
    ⟨.static, .object "Deck", ["last"]⟩, ⟨.field, .primitive .int, ["size"]⟩]
  subroutines := [
    { kind := .constructor
      returnType := .value (.object "Deck")
      name := "new"
      parameters := [⟨.primitive .int, "count"⟩]
      locals := []
      body := [
        .let "size" none [.term (.var "count")],
        .let "cards" none [.term (.call (.mk (some "Array") "new" [[.term (.var "count")]]))],
        .let "last" none [.term (.constant .this)],
        .return (some [.term (.constant .this)])] },
    { kind := .method
      returnType := .void
      name := "swap"
      parameters := [⟨.primitive .int, "i"⟩, ⟨.primitive .int, "j"⟩]
      locals := [⟨.primitive .int, ["old"]⟩]
      body := [
        .let "old" none [.term (.item "cards" [.term (.var "i")])],
        .let "cards" (some [.term (.var "i")]) [.term (.item "cards" [.term (.var "j")])],
        .let "cards" (some [.term (.var "j")]) [.term (.var "old")],
        .return none] },
    { kind := .function
      returnType := .value (.primitive .int)
      name := "count"
      parameters := []
      locals := []
      body := [
        .let "made" none [.term (.var "made"), .op .add, .term (.int 1)],
        .return (some [.term (.var "made")])] }]

def deckCode : List Instruction :=
  [.function "Deck.new" 0, .push .constant 2, .call "Memory.alloc" 1, .pop .pointer 0,
    .push .argument 0, .pop .this 1,
    .push .argument 0, .call "Array.new" 1, .pop .this 0,
    .push .pointer 0, .pop .static 1, .push .pointer 0, .return,
    .function "Deck.swap" 1, .push .argument 0, .pop .pointer 0,
    .push .this 0, .push .argument 1, .operate .add, .pop .pointer 1, .push .that 0,
    .pop .local 0,
    .push .this 0, .push .argument 1, .operate .add,
    .push .this 0, .push .argument 2, .operate .add, .pop .pointer 1, .push .that 0,
    .pop .temp 0, .pop .pointer 1, .push .temp 0, .pop .that 0,
    .push .this 0, .push .argument 2, .operate .add, .push .local 0,
    .pop .temp 0, .pop .pointer 1, .push .temp 0, .pop .that 0,
    .push .constant 0, .return,
    .function "Deck.count" 0, .push .static 0, .push .constant 1, .operate .add,
    .pop .static 0, .push .static 0, .return]

theorem deck_accesses_own_cells :
    deck.code {} = .ok deckCode ∧
      List.Forall₂ (Subroutine.Confined deck) deck.subroutines (blocks deckCode) := by
  have generated : deck.code {} = .ok deckCode := rfl
  exact ⟨generated, Class.code_accesses_own_cells generated⟩

end ClassLang
