import ClassLang.Vm.Instruction

/-!
The stack machine that runs the code of one subroutine.

Words have any number of bits. Labels are local to the subroutine, and whatever it calls is
known only by its result and by the shared state it leaves behind. A call keeps the arguments,
the locals and the pointers of its caller, but not `temp`.
-/

namespace ClassLang.Vm

abbrev Word (width : Nat) : Type := BitVec width

variable {width : Nat}

/-- The word that a comparison gives: all bits set, or none. -/
def truth (holds : Bool) : Word width :=
  if holds then BitVec.allOnes width else 0

/-- The part of the state that all subroutines share. -/
structure Shared (width : Nat) where
  memory : Word width → Word width
  statics : Nat → Word width

/-- Replace the contents of one cell. -/
def overwrite {α : Type} [DecidableEq α] (cells : α → Word width) (cell : α) (value : Word width) :
    α → Word width :=
  fun other => if other = cell then value else cells other

/-- What lies outside the subroutine. -/
structure Environment (width : Nat) where
  /-- The result of a call on given arguments, and the shared state behind it. -/
  call : String → List (Word width) → Shared width → Word width × Shared width
  /-- What the first call of the run leaves in `temp`, what the second one leaves there, and so
  on. -/
  leftover : Nat → Nat → Word width

structure State (width : Nat) where
  position : Nat
  /-- The operand stack, its top first. -/
  stack : List (Word width)
  arguments : Nat → Word width
  locals : Nat → Word width
  thisPointer : Word width
  thatPointer : Word width
  temp : Nat → Word width
  shared : Shared width
  /-- How many calls there have been. -/
  calls : Nat

namespace State

def read (state : State width) : Segment → Nat → Option (Word width)
  | .constant, value => some (BitVec.ofNat width value)
  | .argument, index => some (state.arguments index)
  | .local, index => some (state.locals index)
  | .static, index => some (state.shared.statics index)
  | .this, index => some (state.shared.memory (state.thisPointer + BitVec.ofNat width index))
  | .that, index => some (state.shared.memory (state.thatPointer + BitVec.ofNat width index))
  | .pointer, 0 => some state.thisPointer
  | .pointer, 1 => some state.thatPointer
  | .pointer, _ => none
  | .temp, index => some (state.temp index)

def setMemory (state : State width) (address value : Word width) : State width :=
  { state with shared :=
      { state.shared with memory := overwrite state.shared.memory address value } }

def write (state : State width) : Segment → Nat → Word width → Option (State width)
  | .constant, _, _ => none
  | .argument, index, value =>
      some { state with arguments := overwrite state.arguments index value }
  | .local, index, value => some { state with locals := overwrite state.locals index value }
  | .static, index, value =>
      some { state with shared :=
        { state.shared with statics := overwrite state.shared.statics index value } }
  | .this, index, value =>
      some (state.setMemory (state.thisPointer + BitVec.ofNat width index) value)
  | .that, index, value =>
      some (state.setMemory (state.thatPointer + BitVec.ofNat width index) value)
  | .pointer, 0, value => some { state with thisPointer := value }
  | .pointer, 1, value => some { state with thatPointer := value }
  | .pointer, _, _ => none
  | .temp, index, value => some { state with temp := overwrite state.temp index value }

/-- The state before the next instruction, with another stack. -/
def proceed (state : State width) (stack : List (Word width)) : State width :=
  { state with position := state.position + 1, stack := stack }

end State

/-- The stack behind an operation. The second operand is on top. -/
def Operation.apply : Operation → List (Word width) → Option (List (Word width))
  | .add, right :: left :: stack => some ((left + right) :: stack)
  | .sub, right :: left :: stack => some ((left - right) :: stack)
  | .neg, operand :: stack => some (-operand :: stack)
  | .eq, right :: left :: stack => some (truth (left == right) :: stack)
  | .gt, right :: left :: stack => some (truth (right.slt left) :: stack)
  | .lt, right :: left :: stack => some (truth (left.slt right) :: stack)
  | .and, right :: left :: stack => some ((left &&& right) :: stack)
  | .or, right :: left :: stack => some ((left ||| right) :: stack)
  | .not, operand :: stack => some (~~~operand :: stack)
  | _, _ => none

def jump (program : List Instruction) (name : String) (state : State width) :
    Option (State width) :=
  (program.idxOf? (.label name)).map fun position => { state with position := position }

/-- The next state, unless the machine has come to a `return` or to the end of the program, or
the instruction cannot be obeyed. -/
def step (environment : Environment width) (program : List Instruction) (state : State width) :
    Option (State width) :=
  match program[state.position]?, state.stack with
  | some (.push segment index), stack =>
      (state.read segment index).map fun value => state.proceed (value :: stack)
  | some (.pop segment index), value :: stack =>
      (state.proceed stack).write segment index value
  | some (.operate operation), stack => (operation.apply stack).map state.proceed
  | some (.label _), stack => some (state.proceed stack)
  | some (.goto name), _ => jump program name state
  | some (.ifGoto name), value :: stack =>
      if value = 0 then some (state.proceed stack)
      else jump program name { state with stack := stack }
  | some (.call name count), stack =>
      if count ≤ stack.length then
        let (result, shared) := environment.call name (stack.take count).reverse state.shared
        some { state.proceed (result :: stack.drop count) with
          shared := shared
          temp := environment.leftover state.calls
          calls := state.calls + 1 }
      else none
  | some (.function _ count), stack =>
      some { state.proceed stack with
        locals := fun index => if index < count then 0 else state.locals index }
  | _, _ => none

/-- The state after so many steps. -/
def run (environment : Environment width) (program : List Instruction) :
    Nat → State width → Option (State width)
  | 0, state => some state
  | steps + 1, state => (step environment program state).bind (run environment program steps)

/-- How a run can end: with the value of a `return`, or behind the last instruction. -/
inductive Ending (width : Nat) where
  | returned (value : Word width) (shared : Shared width)
  | ranOff (shared : Shared width)

def State.ending? (program : List Instruction) (state : State width) : Option (Ending width) :=
  match program[state.position]?, state.stack with
  | some .return, value :: _ => some (.returned value state.shared)
  | none, _ => some (.ranOff state.shared)
  | _, _ => none

def Ends (environment : Environment width) (program : List Instruction) (state : State width)
    (ending : Ending width) : Prop :=
  ∃ steps final, run environment program steps state = some final ∧
    final.ending? program = some ending

/-- The machine can take any number of steps. -/
def Diverges (environment : Environment width) (program : List Instruction)
    (state : State width) : Prop :=
  ∀ steps, ∃ next, run environment program steps state = some next

variable {environment : Environment width} {program : List Instruction}
  {state next last : State width}

theorem run_add (first second : Nat) (state : State width) :
    run environment program (first + second) state =
      (run environment program first state).bind (run environment program second) := by
  induction first generalizing state with
  | zero => simp [run]
  | succ first inductionHypothesis =>
      rw [Nat.succ_add]
      simp only [run]
      cases step environment program state with
      | none => rfl
      | some next => exact inductionHypothesis next

theorem step_of_ending {ending : Ending width} (ended : state.ending? program = some ending) :
    step environment program state = none := by
  unfold State.ending? at ended
  split at ended
  next found shape => simp [step, found, shape]
  next found => simp [step, found]
  next => contradiction

/-- A machine that has ended takes no further step. -/
theorem run_of_ending {ending : Ending width} (ended : state.ending? program = some ending)
    {steps : Nat} (ran : run environment program steps state = some next) :
    steps = 0 ∧ next = state := by
  cases steps with
  | zero => exact ⟨rfl, (Option.some.inj ran).symm⟩
  | succ steps => simp [run, step_of_ending ended] at ran

/-- A run passes through every state that a shorter run reaches. -/
theorem run_through {short long : Nat} (reached : run environment program short state = some next)
    (shorter : short ≤ long) :
    run environment program long state = run environment program (long - short) next := by
  have split : long = short + (long - short) := by omega
  rw [split, run_add, reached]
  simp

/-- A run that ends is the longest one. -/
theorem run_le_of_ending {ending : Ending width} {short long : Nat}
    (reached : run environment program short state = some next)
    (ended : next.ending? program = some ending)
    (ran : run environment program long state = some last) : long ≤ short := by
  rcases Nat.lt_or_ge short long with longer | shorter
  · rw [run_through reached (by omega)] at ran
    have stopped := (run_of_ending ended ran).1
    omega
  · exact shorter

theorem Ends.unique {first second : Ending width}
    (endsFirst : Ends environment program state first)
    (endsSecond : Ends environment program state second) : first = second := by
  obtain ⟨firstSteps, firstFinal, firstRan, firstEnded⟩ := endsFirst
  obtain ⟨secondSteps, secondFinal, secondRan, secondEnded⟩ := endsSecond
  have atMost := run_le_of_ending firstRan firstEnded secondRan
  have atLeast := run_le_of_ending secondRan secondEnded firstRan
  have equal : firstSteps = secondSteps := by omega
  subst equal
  rw [firstRan] at secondRan
  cases secondRan
  rw [firstEnded] at secondEnded
  exact Option.some.inj secondEnded

theorem Ends.not_diverges {ending : Ending width} (ends : Ends environment program state ending) :
    ¬ Diverges environment program state := by
  obtain ⟨steps, final, ran, ended⟩ := ends
  intro diverges
  obtain ⟨further, ranOn⟩ := diverges (steps + 1)
  have := run_le_of_ending ran ended ranOn
  omega

end ClassLang.Vm
