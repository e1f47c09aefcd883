import ClassLang.Code.Expression
import ClassLang.Proofs.Meaning

/-!
What single instructions do to a machine whose state stands for a store.

The store knows parameters by their own numbers, while the arguments of a method start with its
object. Locals agree as far as the subroutine has any.
-/

namespace ClassLang

open Vm

variable {width : Nat}

namespace Vm

/-- The code stands in the program from the position on. -/
def CodeAt (program : List Instruction) : Nat → List Instruction → Prop
  | _, [] => True
  | position, instruction :: rest =>
      program[position]? = some instruction ∧ CodeAt program (position + 1) rest

variable {program : List Instruction}

@[simp] theorem codeAt_nil (position : Nat) : CodeAt program position [] := trivial

@[simp] theorem codeAt_cons {position : Nat} {instruction : Instruction}
    {rest : List Instruction} :
    CodeAt program position (instruction :: rest) ↔
      program[position]? = some instruction ∧ CodeAt program (position + 1) rest := Iff.rfl

@[simp] theorem codeAt_append {position : Nat} {first second : List Instruction} :
    CodeAt program position (first ++ second) ↔
      CodeAt program position first ∧ CodeAt program (position + first.length) second := by
  induction first generalizing position with
  | nil => simp
  | cons instruction rest inductionHypothesis =>
      simp only [List.cons_append, codeAt_cons, inductionHypothesis, List.length_cons, and_assoc]
      rw [Nat.add_assoc, Nat.add_comm 1]

theorem codeAt_self (before code after : List Instruction) :
    CodeAt (before ++ code ++ after) before.length code := by
  induction code generalizing before with
  | nil => simp
  | cons instruction rest inductionHypothesis =>
      refine ⟨by simp, ?_⟩
      have moved := inductionHypothesis (before ++ [instruction])
      simpa using moved

variable {environment : Environment width}

/-- The machine gets from one state to another in at least so many steps. -/
def Reaches (environment : Environment width) (program : List Instruction) (least : Nat)
    (state next : State width) : Prop :=
  ∃ steps, least ≤ steps ∧ run environment program steps state = some next

theorem Reaches.refl (state : State width) : Reaches environment program 0 state state :=
  ⟨0, Nat.le_refl 0, rfl⟩

theorem Reaches.of_step {state next : State width}
    (stepped : step environment program state = some next) :
    Reaches environment program 1 state next :=
  ⟨1, Nat.le_refl 1, by simp [run, stepped]⟩

theorem Reaches.trans {first second : Nat} {state next last : State width}
    (reached : Reaches environment program first state next)
    (further : Reaches environment program second next last) :
    Reaches environment program (first + second) state last := by
  obtain ⟨steps, enough, ran⟩ := reached
  obtain ⟨furtherSteps, furtherEnough, ranOn⟩ := further
  exact ⟨steps + furtherSteps, by omega, by simp [run_add, ran, ranOn]⟩

theorem Reaches.weaken {more less : Nat} {state next : State width}
    (reached : Reaches environment program more state next) (fewer : less ≤ more) :
    Reaches environment program less state next := by
  obtain ⟨steps, enough, ran⟩ := reached
  exact ⟨steps, by omega, ran⟩

end Vm

/-- How far the arguments of a subroutine stand behind its parameters. -/
def Frame.shift (frame : Frame) : Nat :=
  if frame.kind = .method then 1 else 0

/-- The frame knows the same names and signatures as the context, and keeps its locals in so
many places. -/
structure Frame.Fits (frame : Frame) (context : Context) (localCount : Nat) : Prop where
  className : frame.className = context.className
  signatures : frame.signatures = context.signatures
  binding? : ∀ name, frame.scope.get? name = context.binding? name
  local_lt : ∀ name binding, context.binding? name = some binding →
    binding.storage = .local → binding.index < localCount

/-- The machine is at a position, with a stack, and agrees with a store. -/
structure Stands (frame : Frame) (localCount : Nat) (state : State width) (position : Nat)
    (stack : List (Word width)) (store : Store width) : Prop where
  position : state.position = position
  stack : state.stack = stack
  parameters : ∀ index, state.arguments (index + frame.shift) = store.parameters index
  locals : ∀ index < localCount, state.locals index = store.locals index
  object : state.thisPointer = store.object
  shared : state.shared = store.shared

/-- The machine gets, in at least so many steps, to where it stands for the store. -/
def Leads (environment : Environment width) (program : List Instruction) (frame : Frame)
    (localCount least : Nat) (state : State width) (position : Nat) (stack : List (Word width))
    (store : Store width) : Prop :=
  ∃ next, Reaches environment program least state next ∧
    Stands frame localCount next position stack store

section

variable {environment : Environment width} {program : List Instruction} {frame : Frame}
  {localCount : Nat} {state : State width} {position : Nat} {stack : List (Word width)}
  {store : Store width}

theorem Stands.leads (stands : Stands frame localCount state position stack store) :
    Leads environment program frame localCount 0 state position stack store :=
  ⟨state, .refl state, stands⟩

theorem Leads.next {first second laterPosition : Nat} {laterStack : List (Word width)}
    {laterStore : Store width}
    (leads : Leads environment program frame localCount first state position stack store)
    (further : ∀ next, Stands frame localCount next position stack store →
      Leads environment program frame localCount second next laterPosition laterStack
        laterStore) :
    Leads environment program frame localCount (first + second) state laterPosition laterStack
      laterStore := by
  obtain ⟨middle, reached, stands⟩ := leads
  obtain ⟨last, reachedLast, standsLast⟩ := further middle stands
  exact ⟨last, reached.trans reachedLast, standsLast⟩

theorem Leads.weaken {more less : Nat}
    (leads : Leads environment program frame localCount more state position stack store)
    (fewer : less ≤ more) :
    Leads environment program frame localCount less state position stack store := by
  obtain ⟨next, reached, stands⟩ := leads
  exact ⟨next, reached.weaken fewer, stands⟩

theorem Leads.at {least other : Nat}
    (leads : Leads environment program frame localCount least state position stack store)
    (equal : position = other) :
    Leads environment program frame localCount least state other stack store :=
  equal ▸ leads

/-! Instructions that leave everything but the stack alone. -/

theorem Stands.proceed (stands : Stands frame localCount state position stack store)
    (newStack : List (Word width)) :
    Stands frame localCount (state.proceed newStack) (position + 1) newStack store :=
  { stands with
    position := by simp [State.proceed, stands.position]
    stack := rfl }

theorem Stands.push (stands : Stands frame localCount state position stack store)
    {segment : Segment} {index : Nat} {value : Word width}
    (code : program[position]? = some (.push segment index))
    (read : state.read segment index = some value) :
    Leads environment program frame localCount 1 state (position + 1) (value :: stack) store := by
  refine ⟨state.proceed (value :: stack), .of_step ?_, stands.proceed _⟩
  simp [step, stands.position, code, read, stands.stack]

theorem Stands.operate {operation : Operation} {result : List (Word width)}
    (stands : Stands frame localCount state position stack store)
    (code : program[position]? = some (.operate operation))
    (applied : operation.apply stack = some result) :
    Leads environment program frame localCount 1 state (position + 1) result store := by
  refine ⟨state.proceed result, .of_step ?_, stands.proceed _⟩
  simp [step, stands.position, code, stands.stack, applied]

theorem Stands.label {name : String}
    (stands : Stands frame localCount state position stack store)
    (code : program[position]? = some (.label name)) :
    Leads environment program frame localCount 1 state (position + 1) stack store := by
  refine ⟨state.proceed stack, .of_step ?_, stands.proceed _⟩
  simp [step, stands.position, code, stands.stack]

/-! Variables. -/

theorem Stands.read (stands : Stands frame localCount state position stack store)
    {binding : Binding} (inside : binding.storage = .local → binding.index < localCount) :
    state.read (frame.location binding).1 (frame.location binding).2 =
      some (store.read binding) := by
  obtain ⟨type, storage, index⟩ := binding
  cases storage with
  | static => simp [Frame.location, Segment.ofStorage, State.read, Store.read, stands.shared]
  | field =>
      simp [Frame.location, Segment.ofStorage, State.read, Store.read, stands.shared,
        stands.object]
  | argument =>
      have agreed := stands.parameters index
      simpa [Frame.location, Segment.ofStorage, State.read, Store.read, Frame.shift] using agreed
  | «local» =>
      simpa [Frame.location, Segment.ofStorage, State.read, Store.read] using
        stands.locals index (inside rfl)

theorem Stands.write (stands : Stands frame localCount state position stack store)
    (binding : Binding) (value : Word width) :
    ∃ next, state.write (frame.location binding).1 (frame.location binding).2 value = some next ∧
      Stands frame localCount next position stack (store.write binding value) := by
  obtain ⟨type, storage, index⟩ := binding
  cases storage with
  | static =>
      refine ⟨_, rfl, { stands with shared := ?_ }⟩
      simp [Frame.location, Store.write, stands.shared]
  | field =>
      refine ⟨_, rfl, { stands with shared := ?_ }⟩
      simp [Frame.location, State.setMemory, Store.write, Store.setMemory, stands.shared,
        stands.object]
  | argument =>
      refine ⟨_, rfl, { stands with parameters := ?_ }⟩
      intro other
      have agreed := stands.parameters other
      simp only [Frame.shift] at agreed
      simp [Frame.location, Store.write, overwrite, Frame.shift, agreed]
  | «local» =>
      refine ⟨_, rfl, { stands with locals := ?_ }⟩
      intro other inside
      simp [Frame.location, Store.write, overwrite, stands.locals other inside]

theorem Stands.popVariable {value : Word width} {binding : Binding}
    (stands : Stands frame localCount state position (value :: stack) store)
    (code : program[position]? =
      some (.pop (frame.location binding).1 (frame.location binding).2)) :
    Leads environment program frame localCount 1 state (position + 1) stack
      (store.write binding value) := by
  obtain ⟨next, written, standsNext⟩ := (stands.proceed stack).write binding value
  refine ⟨next, .of_step ?_, standsNext⟩
  simp [step, stands.position, code, stands.stack, written]

theorem Stands.discard {value : Word width}
    (stands : Stands frame localCount state position (value :: stack) store)
    (code : program[position]? = some (.pop .temp 0)) :
    Leads environment program frame localCount 1 state (position + 1) stack store := by
  refine ⟨{ state.proceed stack with temp := overwrite state.temp 0 value }, .of_step ?_,
    { stands.proceed stack with }⟩
  simp [step, stands.position, code, stands.stack, State.write, State.proceed]

theorem Stands.popObject {value : Word width}
    (stands : Stands frame localCount state position (value :: stack) store)
    (code : program[position]? = some (.pop .pointer 0)) :
    Leads environment program frame localCount 1 state (position + 1) stack
      { store with object := value } := by
  refine ⟨{ state.proceed stack with thisPointer := value }, .of_step ?_,
    { stands.proceed stack with object := rfl }⟩
  simp [step, stands.position, code, stands.stack, State.write, State.proceed]

/-! Memory behind a computed address. -/

theorem Stands.readMemory {address : Word width}
    (stands : Stands frame localCount state position (address :: stack) store)
    (code : CodeAt program position [.pop .pointer 1, .push .that 0]) :
    Leads environment program frame localCount 2 state (position + 2)
      (store.shared.memory address :: stack) store := by
  obtain ⟨popCode, pushCode, -⟩ := code
  let pointed : State width := { state.proceed stack with thatPointer := address }
  have standsPointed : Stands frame localCount pointed (position + 1) stack store :=
    { stands.proceed stack with }
  have reached : Reaches environment program 1 state pointed := by
    apply Reaches.of_step
    simp [step, stands.position, popCode, stands.stack, State.write, pointed]
  have reads : pointed.read .that 0 = some (store.shared.memory address) := by
    simp [State.read, pointed, State.proceed, stands.shared]
  obtain ⟨last, reachedLast, standsLast⟩ := standsPointed.push pushCode reads
  exact ⟨last, reached.trans reachedLast, standsLast⟩

/-- The value waits in `temp` until the address has been taken off the stack. -/
theorem Stands.writeMemory {address value : Word width}
    (stands : Stands frame localCount state position (value :: address :: stack) store)
    (code : CodeAt program position
      [.pop .temp 0, .pop .pointer 1, .push .temp 0, .pop .that 0]) :
    Leads environment program frame localCount 4 state (position + 4) stack
      (store.setMemory address value) := by
  obtain ⟨parkCode, pointCode, fetchCode, storeCode, -⟩ := code
  let parked : State width :=
    { state.proceed (address :: stack) with temp := overwrite state.temp 0 value }
  let pointed : State width := { parked.proceed stack with thatPointer := address }
  let fetched : State width := pointed.proceed (value :: stack)
  let stored : State width := (fetched.proceed stack).setMemory address value
  have atStart := stands.position
  have park : Reaches environment program 1 state parked := by
    apply Reaches.of_step
    simp [step, atStart, parkCode, stands.stack, State.write, parked, State.proceed]
  have point : Reaches environment program 1 parked pointed := by
    apply Reaches.of_step
    simp [step, atStart, pointCode, State.write, parked, pointed, State.proceed]
  have fetch : Reaches environment program 1 pointed fetched := by
    apply Reaches.of_step
    simp [step, atStart, fetchCode, State.read, parked, pointed, fetched, State.proceed,
      overwrite]
  have store : Reaches environment program 1 fetched stored := by
    apply Reaches.of_step
    simp [step, atStart, storeCode, State.write, parked, pointed, fetched, stored,
      State.proceed]
  refine ⟨stored, ((park.trans point).trans fetch).trans store,
    { stands with position := ?_, stack := rfl, shared := ?_ }⟩
  · simp [stored, fetched, pointed, parked, State.setMemory, State.proceed, atStart]
  · simp [stored, fetched, pointed, parked, State.setMemory, State.proceed, Store.setMemory,
      stands.shared]

/-! Calls. -/

theorem Stands.call {name : String} {values : List (Word width)} {count : Nat}
    (stands : Stands frame localCount state position (values.reverse ++ stack) store)
    (code : program[position]? = some (.call name count)) (counted : values.length = count) :
    Leads environment program frame localCount 1 state (position + 1)
      ((store.call environment name values).1 :: stack)
      (store.call environment name values).2 := by
  subst counted
  let result := environment.call name values store.shared
  refine ⟨{ state.proceed (result.1 :: stack) with
    shared := result.2
    temp := environment.leftover state.calls
    calls := state.calls + 1 }, .of_step ?_, { stands.proceed (result.1 :: stack) with
      shared := rfl }⟩
  have taken : ((values.reverse ++ stack).take values.length).reverse = values := by simp
  have dropped : (values.reverse ++ stack).drop values.length = stack := by simp
  simp only [step, stands.position, code, stands.stack, taken, dropped, stands.shared]
  simp [result, State.proceed, stands.position]

theorem Stands.binary {left right : Word width} {op : BinaryOp}
    (stands : Stands frame localCount state position (right :: left :: stack) store)
    (code : program[position]? = some op.code) :
    Leads environment program frame localCount 1 state (position + 1)
      ((op.meaning environment left right store).1 :: stack)
      (op.meaning environment left right store).2 := by
  have called : Stands frame localCount state position ([left, right].reverse ++ stack) store :=
    stands
  cases op with
  | multiply => exact called.call code rfl
  | divide => exact called.call code rfl
  | add => exact stands.operate code rfl
  | subtract => exact stands.operate code rfl
  | and => exact stands.operate code rfl
  | or => exact stands.operate code rfl
  | less => exact stands.operate code rfl
  | greater => exact stands.operate code rfl
  | equal => exact stands.operate code rfl

/-! Jumps. -/

theorem Stands.goto {name : String} {target : Nat}
    (stands : Stands frame localCount state position stack store)
    (code : program[position]? = some (.goto name))
    (labelled : program.idxOf? (.label name) = some target) :
    Leads environment program frame localCount 1 state target stack store := by
  refine ⟨{ state with position := target }, .of_step ?_, { stands with position := rfl }⟩
  simp [step, stands.position, code, jump, labelled]

theorem Stands.ifGoto_zero {name : String}
    (stands : Stands frame localCount state position (0 :: stack) store)
    (code : program[position]? = some (.ifGoto name)) :
    Leads environment program frame localCount 1 state (position + 1) stack store := by
  refine ⟨state.proceed stack, .of_step ?_, stands.proceed _⟩
  simp [step, stands.position, code, stands.stack]

theorem Stands.ifGoto_nonzero {name : String} {target : Nat} {value : Word width}
    (stands : Stands frame localCount state position (value :: stack) store)
    (code : program[position]? = some (.ifGoto name)) (nonzero : value ≠ 0)
    (labelled : program.idxOf? (.label name) = some target) :
    Leads environment program frame localCount 1 state target stack store := by
  refine ⟨{ state with position := target, stack := stack }, .of_step ?_,
    { stands with position := rfl, stack := rfl }⟩
  simp only [step, stands.position, code, stands.stack, if_neg nonzero]
  simp [jump, labelled]

end

end ClassLang
