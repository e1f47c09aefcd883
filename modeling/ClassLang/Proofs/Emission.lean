import ClassLang.Code.Class

/-!
Code emitted into a buffer.

The code of a class can be made in one pass that appends instruction after instruction to a buffer,
which all subroutines share, and counts labels as it goes. What is in the buffer is never touched
again, not even by a pass that fails. A pass that does not fail leaves the code of the class.
-/

namespace ClassLang

open Vm

structure Emission where
  /-- What was emitted so far, the first first. -/
  code : List Instruction := []
  labels : Labels := {}

/-- A program that emits code. If it fails, what it has emitted until then is still there. -/
abbrev Emitter (ε : Type) : Type → Type := ExceptT ε (StateM Emission)

namespace Emitter

variable {ε α : Type}

def emit (instruction : Instruction) : Emitter ε Unit :=
  modify fun emission => { emission with code := emission.code ++ [instruction] }

def emitAll (instructions : List Instruction) : Emitter ε Unit := instructions.forM emit

/-- Go on with the value, if there is one. -/
def ofResult (result : Except ε α) : Emitter ε α := fun emission => (result, emission)

/-- The number of the `if` that starts here. -/
def numberIf : Emitter ε Nat := modifyGet fun emission =>
  (emission.labels.nextIf,
    { emission with labels.nextIf := emission.labels.nextIf + 1 })

/-- The number of the `while` that starts here. -/
def numberWhile : Emitter ε Nat := modifyGet fun emission =>
  (emission.labels.nextWhile,
    { emission with labels.nextWhile := emission.labels.nextWhile + 1 })

/-- Emit with labels that are numbered anew. -/
def withOwnLabels (emitter : Emitter ε α) : Emitter ε α := fun emission =>
  let (result, after) := emitter { emission with labels := {} }
  (result, { after with labels := emission.labels })

/-- Any error of this emitter brings everything to a halt. -/
def halting (emitter : Emitter ε α) : Emitter (Halt ε) α := fun emission =>
  let (result, after) := emitter emission
  (Halt.onError result, after)

section

variable {β : Type} {emitter : Emitter ε α} {start middle : Emission}

theorem bind_of_ok {value : α} (done : emitter start = (.ok value, middle))
    (next : α → Emitter ε β) : (emitter >>= next) start = next value middle := by
  change StateT.bind emitter (ExceptT.bindCont next) start = _
  rw [StateT.bind, done]
  rfl

theorem bind_of_error {error : ε} (failed : emitter start = (.error error, middle))
    (next : α → Emitter ε β) : (emitter >>= next) start = (.error error, middle) := by
  change StateT.bind emitter (ExceptT.bindCont next) start = _
  rw [StateT.bind, failed]
  rfl

end

end Emitter

open Emitter

mutual

def Term.emit (frame : Frame) : Term → Emitter CompileError Unit
  | .int value => Emitter.emit (.push .constant value.toNat)
  | .string text => emitAll (stringCode text)
  | .constant value => emitAll value.code
  | .var name => do
      let (segment, place) ← ofResult (frame.resolve name)
      Emitter.emit (.push segment place)
  | .item array index => do
      let (segment, place) ← ofResult (frame.resolve array)
      Emitter.emit (.push segment place)
      Expression.emit frame index
      emitAll [.operate .add, .pop .pointer 1, .push .that 0]
  | .paren inner => Expression.emit frame inner
  | .unary op operand => do
      operand.emit frame
      Emitter.emit (.operate op.operation)
  | .call call => call.emit frame

def Expression.emit (frame : Frame) : List Element → Emitter CompileError Unit
  | [] => throw (.unexpected "expression" "nothing")
  | .op _ :: _ => throw frame.malformed
  | .term first :: rest => do
      first.emit frame
      Expression.emitOperations frame rest []

/-- The terms are emitted as they come, and the operators, which are kept in the order in which
they came, when there are no more of them. -/
def Expression.emitOperations (frame : Frame) :
    List Element → (operators : List BinaryOp) → Emitter CompileError Unit
  | [], operators => emitAll (operators.reverse.map BinaryOp.code)
  | .op op :: .term operand :: rest, operators => do
      operand.emit frame
      Expression.emitOperations frame rest (operators ++ [op])
  | _, _ => throw frame.malformed

def Call.emit (frame : Frame) : Call → Emitter CompileError Unit
  | .mk receiver name arguments => do
      let (className, receiverCode) ← ofResult (frame.target receiver name)
      emitAll receiverCode
      -- By now the receiver is in the buffer, where it stays if the number of arguments is wrong.
      ofResult (frame.checkArity className name arguments.length)
      Call.emitArguments frame arguments
      Emitter.emit (.call (qualifiedName className name) (receiverCode.length + arguments.length))

def Call.emitArguments (frame : Frame) : List (List Element) → Emitter CompileError Unit
  | [] => pure ()
  | first :: rest => do
      Expression.emit frame first
      Call.emitArguments frame rest

end

namespace Statement

mutual

def emit (frame : Frame) : Statement → Emitter CompileError Unit
  | .let name none value => do
      let (segment, place) ← ofResult (frame.resolve name)
      Expression.emit frame value
      Emitter.emit (.pop segment place)
  | .let name (some index) value => do
      let (segment, place) ← ofResult (frame.resolve name)
      Emitter.emit (.push segment place)
      Expression.emit frame index
      Emitter.emit (.operate .add)
      Expression.emit frame value
      emitAll [.pop .temp 0, .pop .pointer 1, .push .temp 0, .pop .that 0]
  | .if condition thenBranch elseBranch => do
      let number := toString (← numberIf)
      Expression.emit frame condition
      emitAll [.ifGoto ("IF_TRUE" ++ number), .goto ("IF_FALSE" ++ number),
        .label ("IF_TRUE" ++ number)]
      emitEach frame thenBranch
      emitAll [.goto ("IF_END" ++ number), .label ("IF_FALSE" ++ number)]
      emitEach frame elseBranch
      Emitter.emit (.label ("IF_END" ++ number))
  | .while condition body => do
      let number := toString (← numberWhile)
      Emitter.emit (.label ("WHILE_EXP" ++ number))
      Expression.emit frame condition
      emitAll [.operate .not, .ifGoto ("WHILE_END" ++ number)]
      emitEach frame body
      emitAll [.goto ("WHILE_EXP" ++ number), .label ("WHILE_END" ++ number)]
  | .do call => do
      call.emit frame
      Emitter.emit (.pop .temp 0)
  | .return none => emitAll [.push .constant 0, .return]
  | .return (some value) => do
      Expression.emit frame value
      Emitter.emit .return

def emitEach (frame : Frame) : List Statement → Emitter CompileError Unit
  | [] => pure ()
  | first :: rest => do
      first.emit frame
      emitEach frame rest

end

end Statement

def Subroutine.emit (className : String) (members : SymbolTable) (signatures : SignatureTable)
    (subroutine : Subroutine) : Emitter (Halt CompileError) Unit := do
  let own ← ofResult (SymbolTable.ofSubroutine className subroutine)
  let frame := subroutine.frame className signatures members own
  Emitter.emit (.function frame.subroutine (own.count .local))
  emitAll (subroutine.kind.entryCode (members.count .field))
  withOwnLabels (halting (Statement.emitEach frame subroutine.body))

def Class.emit (cls : Class) (signatures : SignatureTable) :
    Emitter (Halt CompileError) Unit := do
  let members ← ofResult (SymbolTable.ofClass cls)
  cls.subroutines.forM (Subroutine.emit cls.name members signatures)

/-- What is in the buffer when a class was emitted into an empty one. -/
def Class.emitted (cls : Class) (signatures : SignatureTable) :
    Except (Halt CompileError) (List Instruction) :=
  let (result, after) := cls.emit signatures {}
  result.map fun _ => after.code

/-! What emitters append. -/

section

variable {ε α : Type} {soFar : List Instruction} {labels : Labels}

/-- Behind what was emitted so far, the emitter completes this code and leaves the labels at these
numbers, whatever else the buffer holds before it. If the emitter fails, it has only appended to the
buffer until then. -/
def Emits (soFar : List Instruction) (emitter : Emitter ε Unit) (labels : Labels) :
    Except ε (List Instruction × Labels) → Prop
  | .ok (code, after) => ∀ before,
      emitter ⟨before ++ soFar, labels⟩ = (.ok (), ⟨before ++ code, after⟩)
  | .error error => ∃ more after, ∀ before,
      emitter ⟨before ++ soFar, labels⟩ = (.error error, ⟨before ++ soFar ++ more, after⟩)

namespace Emits

variable {emitter next : Emitter ε Unit} {outcome : Except ε (List Instruction × Labels)}

theorem done : Emits soFar (pure () : Emitter ε Unit) labels (.ok (soFar, labels)) :=
  fun _ => rfl

theorem failed (error : ε) : Emits soFar (throw error : Emitter ε Unit) labels (.error error) :=
  ⟨[], labels, fun before => by rw [List.append_nil]; rfl⟩

section

variable {code : List Instruction} {after : Labels} {error : ε}

theorem run_ok (emits : Emits [] emitter labels (.ok (code, after)))
    (before : List Instruction) :
    emitter ⟨before, labels⟩ = (.ok (), ⟨before ++ code, after⟩) := by
  simpa using emits before

theorem run_error (emits : Emits [] emitter labels (.error error)) :
    ∃ more after, ∀ before,
      emitter ⟨before, labels⟩ = (.error error, ⟨before ++ more, after⟩) := by
  obtain ⟨more, after, fails⟩ := emits
  exact ⟨more, after, fun before => by simpa using fails before⟩

end

/-- What was emitted so far is but a part of what the buffer holds. -/
theorem behind (emits : Emits [] emitter labels outcome) :
    Emits soFar emitter labels (outcome.map fun (code, after) => (soFar ++ code, after)) := by
  rcases outcome with error | ⟨code, after⟩
  · obtain ⟨more, after, fails⟩ := emits.run_error
    exact ⟨more, after, fun before => fails (before ++ soFar)⟩
  · intro before
    rw [emits.run_ok, List.append_assoc]

section

variable {code : List Instruction} {middle : Labels}

theorem bind_ok (emits : Emits [] emitter labels (.ok (code, middle)))
    (goesOn : Emits (soFar ++ code) next middle outcome) :
    Emits soFar (do emitter; next) labels outcome := by
  have emits : Emits soFar emitter labels (.ok (soFar ++ code, middle)) := emits.behind
  rcases outcome with error | ⟨whole, after⟩
  · obtain ⟨more, after, fails⟩ := goesOn
    refine ⟨code ++ more, after, fun before => ?_⟩
    rw [bind_of_ok (emits before), fails before]
    simp
  · exact fun before => (bind_of_ok (emits before) _).trans (goesOn before)

theorem bind_error {error : ε} (emits : Emits [] emitter labels (.error error)) :
    Emits soFar (do emitter; next) labels (.error error) := by
  obtain ⟨more, after, fails⟩ : Emits soFar emitter labels (.error error) := emits.behind
  exact ⟨more, after, fun before => bind_of_error (fails before) _⟩

end

section

variable {β : Type} {result : Except ε β} {view : β → List Instruction × Labels}
  {first : Except ε (List Instruction × Labels)}

/-- One emitter after another. What the first one is to emit can be part of a larger result. -/
theorem bind_map {rest : β → Except ε (List Instruction × Labels)}
    (emits : Emits [] emitter labels (view <$> result))
    (goesOn : ∀ value, Emits (soFar ++ (view value).1) next (view value).2 (rest value)) :
    Emits soFar (do emitter; next) labels (result >>= rest) := by
  cases result with
  | error error => exact bind_error emits
  | ok value => exact bind_ok emits (goesOn value)

theorem bind {rest : List Instruction × Labels → Except ε (List Instruction × Labels)}
    (emits : Emits [] emitter labels first)
    (goesOn : ∀ code middle, Emits (soFar ++ code) next middle (rest (code, middle))) :
    Emits soFar (do emitter; next) labels (first >>= rest) := by
  rw [← id_map first] at emits
  exact bind_map emits fun value => goesOn value.1 value.2

/-- An emitter that completes the code. -/
theorem last_map {rest : β → Except ε (List Instruction × Labels)}
    (emits : Emits [] emitter labels (view <$> result))
    (complete : ∀ value, rest value = .ok (soFar ++ (view value).1, (view value).2)) :
    Emits soFar emitter labels (result >>= rest) := by
  cases result with
  | error error => exact behind emits
  | ok value =>
      change Emits soFar emitter labels (rest value)
      rw [complete]
      exact behind emits

theorem last {rest : List Instruction × Labels → Except ε (List Instruction × Labels)}
    (emits : Emits [] emitter labels first)
    (complete : ∀ code after, rest (code, after) = .ok (soFar ++ code, after)) :
    Emits soFar emitter labels (first >>= rest) := by
  rw [← id_map first] at emits
  exact last_map emits fun value => complete value.1 value.2

end

theorem after_ofResult {result : Except ε α} {following : α → Emitter ε Unit}
    {rest : α → Except ε (List Instruction × Labels)}
    (goesOn : ∀ value, Emits soFar (following value) labels (rest value)) :
    Emits soFar (Emitter.ofResult result >>= following) labels (result >>= rest) := by
  cases result with
  | error error => exact failed error
  | ok value => exact goesOn value

theorem emit (instruction : Instruction) :
    Emits soFar (Emitter.emit instruction : Emitter ε Unit) labels
      (.ok (soFar ++ [instruction], labels)) :=
  fun before => by rw [← List.append_assoc]; rfl

theorem after_emit {instruction : Instruction}
    (goesOn : Emits (soFar ++ [instruction]) next labels outcome) :
    Emits soFar (do Emitter.emit instruction; next) labels outcome :=
  (emit instruction).bind_ok goesOn

theorem emitAll (instructions : List Instruction) :
    Emits soFar (Emitter.emitAll instructions : Emitter ε Unit) labels
      (.ok (soFar ++ instructions, labels)) := by
  induction instructions generalizing soFar with
  | nil =>
      rw [List.append_nil]
      exact done
  | cons instruction rest inductionHypothesis =>
      rw [List.append_cons]
      exact after_emit inductionHypothesis

theorem after_emitAll {instructions : List Instruction}
    (goesOn : Emits (soFar ++ instructions) next labels outcome) :
    Emits soFar (do Emitter.emitAll instructions; next) labels outcome :=
  (emitAll instructions).bind_ok goesOn

theorem after_numberIf {following : Nat → Emitter ε Unit}
    (goesOn : Emits soFar (following labels.nextIf)
      { labels with nextIf := labels.nextIf + 1 } outcome) :
    Emits soFar (numberIf >>= following) labels outcome :=
  goesOn

theorem after_numberWhile {following : Nat → Emitter ε Unit}
    (goesOn : Emits soFar (following labels.nextWhile)
      { labels with nextWhile := labels.nextWhile + 1 } outcome) :
    Emits soFar (numberWhile >>= following) labels outcome :=
  goesOn

/-- The end of an emitter, with labels of its own. -/
theorem last_halting {first : Except ε (List Instruction × Labels)}
    {own : Emitter ε Unit}
    {rest : List Instruction × Labels → Except (Halt ε) (List Instruction × Labels)}
    (emits : Emits [] own {} first)
    (complete : ∀ code after, rest (code, after) = .ok (soFar ++ code, labels)) :
    Emits soFar (withOwnLabels (halting own)) labels (Halt.onError first >>= rest) := by
  rcases first with error | ⟨code, after⟩
  · obtain ⟨more, after, fails⟩ : Emits soFar own {} (.error error) := emits.behind
    refine ⟨more, labels, fun before => ?_⟩
    rw [withOwnLabels, halting, fails before]
    rfl
  · change Emits soFar _ labels (rest (code, after))
    have emits : Emits soFar own {} (.ok (soFar ++ code, after)) := emits.behind
    rw [complete]
    intro before
    rw [withOwnLabels, halting, emits before]
    rfl

/-- What an emitter finds in the buffer stays there. -/
theorem appends (emits : Emits [] emitter labels outcome) (before : List Instruction) :
    before <+: (emitter ⟨before, labels⟩).2.code := by
  rcases outcome with error | ⟨code, after⟩
  · obtain ⟨more, after, fails⟩ := emits.run_error
    rw [fails]
    exact List.prefix_append before more
  · rw [emits.run_ok]
    exact List.prefix_append before code

end Emits

end

mutual

theorem Term.emits (frame : Frame) (labels : Labels) :
    (term : Term) → Emits [] (term.emit frame) labels ((·, labels) <$> term.code frame)
  | .int value => .emit _
  | .string text => .emitAll _
  | .constant value => .emitAll _
  | .var name => by
      rw [Term.emit, Term.code, map_bind]
      exact .after_ofResult fun _ => .emit _
  | .item array index => by
      rw [Term.emit, Term.code, map_bind]
      refine .after_ofResult fun _ => .after_emit ?_
      rw [map_bind]
      exact .bind_map (Expression.emits frame labels index) fun _ => .emitAll _
  | .paren inner => Expression.emits frame labels inner
  | .unary op operand => by
      rw [Term.emit, Term.code, map_bind]
      exact .bind_map (operand.emits frame labels) fun _ => .emit _
  | .call call => call.emits frame labels

theorem Expression.emits (frame : Frame) (labels : Labels) : (elements : List Element) →
    Emits [] (Expression.emit frame elements) labels
      ((·, labels) <$> Expression.code frame elements)
  | [] => .failed _
  | .op _ :: _ => .failed _
  | .term first :: rest => by
      rw [Expression.emit, Expression.code, map_bind]
      refine .bind_map (first.emits frame labels) fun _ => ?_
      rw [map_bind]
      exact .last_map (Expression.operations_emit frame labels rest []) fun _ => rfl

theorem Expression.operations_emit (frame : Frame) (labels : Labels) :
    (elements : List Element) → (operators : List BinaryOp) →
      Emits [] (Expression.emitOperations frame elements operators) labels
        ((·, labels) <$> Expression.operationsCode frame elements operators.reverse)
  | [], operators => .emitAll _
  | .op op :: .term operand :: rest, operators => by
      rw [Expression.emitOperations, Expression.operationsCode, map_bind]
      refine .bind_map (operand.emits frame labels) fun _ => ?_
      rw [map_bind, ← List.reverse_concat]
      exact .last_map (Expression.operations_emit frame labels rest (operators ++ [op]))
        fun _ => rfl
  | .term _ :: _, _ | [.op _], _ | .op _ :: .op _ :: _, _ => .failed _

theorem Call.emits (frame : Frame) (labels : Labels) :
    (call : Call) → Emits [] (call.emit frame) labels ((·, labels) <$> call.code frame)
  | .mk receiver name arguments => by
      rw [Call.emit, Call.code, map_bind]
      refine .after_ofResult fun _ => .after_emitAll ?_
      rw [map_bind]
      refine .after_ofResult fun _ => ?_
      rw [map_bind]
      exact .bind_map (Call.arguments_emit frame labels arguments) fun _ => .emit _

theorem Call.arguments_emit (frame : Frame) (labels : Labels) :
    (arguments : List (List Element)) →
      Emits [] (Call.emitArguments frame arguments) labels
        ((·, labels) <$> Call.argumentsCode frame arguments)
  | [] => .done
  | first :: rest => by
      rw [Call.emitArguments, Call.argumentsCode, map_bind]
      refine .bind_map (Expression.emits frame labels first) fun _ => ?_
      rw [map_bind]
      exact .last_map (Call.arguments_emit frame labels rest) fun _ => rfl

end

namespace Statement

mutual

theorem emits (frame : Frame) : (statement : Statement) → (labels : Labels) →
    Emits [] (statement.emit frame) labels (statement.code frame labels)
  | .let name none value, labels => by
      rw [emit, code]
      exact .after_ofResult fun _ =>
        .bind_map (Expression.emits frame labels value) fun _ => .emit _
  | .let name (some index) value, labels => by
      rw [emit, code]
      refine .after_ofResult fun _ => .after_emit ?_
      refine .bind_map (Expression.emits frame labels index) fun _ => .after_emit ?_
      exact .bind_map (Expression.emits frame labels value) fun _ => .emitAll _
  | .if condition thenBranch elseBranch, labels => by
      rw [emit, code]
      refine .after_numberIf (.bind_map (Expression.emits frame _ condition) fun _ => ?_)
      refine .after_emitAll (.bind (each_emits frame thenBranch _) fun _ labels => ?_)
      exact .after_emitAll (.bind (each_emits frame elseBranch labels) fun _ _ => .emit _)
  | .while condition body, labels => by
      rw [emit, code]
      refine .after_numberWhile (.after_emit ?_)
      refine .bind_map (Expression.emits frame _ condition) fun _ => .after_emitAll ?_
      exact .bind (each_emits frame body _) fun _ _ => .emitAll _
  | .do call, labels => by
      rw [emit, code]
      exact .bind_map (call.emits frame labels) fun _ => .emit _
  | .return none, labels => .emitAll _
  | .return (some value), labels => by
      rw [emit, code]
      exact .bind_map (Expression.emits frame labels value) fun _ => .emit _

theorem each_emits (frame : Frame) : (statements : List Statement) → (labels : Labels) →
    Emits [] (emitEach frame statements) labels (codeAll frame statements labels)
  | [], _ => .done
  | first :: rest, labels => by
      rw [emitEach, codeAll]
      refine .bind (first.emits frame labels) fun _ labels => ?_
      exact .last (each_emits frame rest labels) fun _ _ => rfl

end

end Statement

theorem Subroutine.emits (className : String) (members : SymbolTable)
    (signatures : SignatureTable) (subroutine : Subroutine) (labels : Labels) :
    Emits [] (subroutine.emit className members signatures) labels
      ((·, labels) <$> subroutine.code className members signatures) := by
  rw [Subroutine.emit, Subroutine.code, map_bind]
  refine .after_ofResult fun own => .after_emit (.after_emitAll ?_)
  rw [map_bind]
  exact .last_halting (Statement.each_emits _ subroutine.body {}) fun _ _ => rfl

theorem Subroutine.each_emits (className : String) (members : SymbolTable)
    (signatures : SignatureTable) (labels : Labels) (subroutines : List Subroutine) :
    Emits [] (subroutines.forM (Subroutine.emit className members signatures)) labels
      ((·.flatten, labels) <$> subroutines.mapM (Subroutine.code className members signatures)) := by
  induction subroutines with
  | nil => exact .done
  | cons first rest inductionHypothesis =>
      rw [List.mapM_cons, map_bind]
      refine .bind_map (first.emits className members signatures labels) fun _ => ?_
      rw [map_bind]
      exact .last_map inductionHypothesis fun _ => rfl

theorem Class.emits (cls : Class) (signatures : SignatureTable) (labels : Labels) :
    Emits [] (cls.emit signatures) labels ((·, labels) <$> cls.code signatures) := by
  rw [Class.emit, Class.code, map_bind]
  refine .after_ofResult fun members => ?_
  rw [map_bind]
  exact .last_map (Subroutine.each_emits cls.name members signatures labels cls.subroutines)
    fun _ => rfl

/-- A pass over a class emits its code, or fails with the error that the class has. -/
theorem Class.emitted_eq_code (cls : Class) (signatures : SignatureTable) :
    cls.emitted signatures = cls.code signatures := by
  have emits := cls.emits signatures {}
  cases coded : cls.code signatures with
  | error halt =>
      rw [coded] at emits
      obtain ⟨_, _, fails⟩ := Emits.run_error emits
      rw [Class.emitted, fails]
      rfl
  | ok code =>
      rw [coded] at emits
      rw [Class.emitted, Emits.run_ok emits]
      rfl

/-- A pass over a class, which may fail, changes nothing that is in the buffer. -/
theorem Class.emit_appends (cls : Class) (signatures : SignatureTable) (emission : Emission) :
    emission.code <+: (cls.emit signatures emission).2.code :=
  (cls.emits signatures emission.labels).appends emission.code

end ClassLang
