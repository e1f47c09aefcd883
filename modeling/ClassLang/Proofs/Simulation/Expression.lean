import ClassLang.Proofs.CodeShape
import ClassLang.Proofs.Simulation.Instruction

/-!
The code of a term, a call or an expression leaves its value on the stack.
-/

namespace ClassLang

open Vm

variable {width : Nat}

/-- Wherever the code stands, it takes the machine to the value and the store that the
evaluation gives, and the evaluation does give them. -/
def Evaluates (environment : Environment width) (program : List Instruction) (frame : Frame)
    (localCount : Nat) (code : List Instruction)
    (evaluation : Store width → Except Interruption (Word width × Store width)) : Prop :=
  ∀ ⦃state : State width⦄ ⦃position : Nat⦄ ⦃stack : List (Word width)⦄ ⦃store : Store width⦄,
    CodeAt program position code → Stands frame localCount state position stack store →
    ∃ value next, evaluation store = .ok (value, next) ∧
      Leads environment program frame localCount 0 state (position + code.length)
        (value :: stack) next

section

variable {environment : Environment width} {program : List Instruction} {frame : Frame}
  {localCount : Nat} {context : Context}

theorem lookup_of_resolve (fits : frame.Fits context localCount) {name : String}
    {segment : Segment} {place : Nat} (resolved : frame.resolve name = .ok (segment, place)) :
    ∃ binding, context.lookup name = .ok binding ∧ frame.location binding = (segment, place) ∧
      (binding.storage = .local → binding.index < localCount) := by
  unfold Frame.resolve at resolved
  rw [fits.binding?] at resolved
  split at resolved
  next binding bound =>
    refine ⟨binding, by simp [Context.lookup, bound], by simpa using resolved, ?_⟩
    exact fits.local_lt name binding bound
  next => contradiction

theorem Stands.pushVariable {state : State width} {position : Nat} {stack : List (Word width)}
    {store : Store width} (stands : Stands frame localCount state position stack store)
    {binding : Binding} {segment : Segment} {place : Nat}
    (located : frame.location binding = (segment, place))
    (inside : binding.storage = .local → binding.index < localCount)
    (code : program[position]? = some (.push segment place)) :
    Leads environment program frame localCount 1 state (position + 1)
      (store.read binding :: stack) store := by
  have reads := stands.read inside
  rw [located] at reads
  exact stands.push code reads

theorem Constant.code_evaluates (constant : Constant) :
    Evaluates environment program frame localCount constant.code
      (fun store => .ok (constant.meaning store, store)) := by
  intro state position stack store code stands
  refine ⟨constant.meaning store, store, rfl, ?_⟩
  cases constant with
  | boolean value =>
      cases value with
      | false => exact (stands.push code.1 rfl).weaken (Nat.zero_le _)
      | true =>
          have pushed : Leads environment program frame localCount 1 state (position + 1)
            (0 :: stack) store := stands.push code.1 rfl
          refine (pushed.next fun next stands => stands.operate code.2.1 ?_).weaken
            (Nat.zero_le _)
          simp [Operation.apply, Constant.meaning, truth]
  | null => exact (stands.push code.1 rfl).weaken (Nat.zero_le _)
  | this =>
      refine (stands.push code.1 ?_).weaken (Nat.zero_le _)
      simp [State.read, Constant.meaning, stands.object]

theorem appendCode_leads (chars : List Char) {state : State width} {position : Nat}
    {stack : List (Word width)} {string : Word width} {store : Store width}
    (code : CodeAt program position
      (chars.flatMap fun c => [.push .constant c.toNat, .call Library.appendChar 2]))
    (stands : Stands frame localCount state position (string :: stack) store) :
    Leads environment program frame localCount 0 state
      (position + (chars.flatMap fun c =>
        [Instruction.push .constant c.toNat, .call Library.appendChar 2]).length)
      ((appendAll environment chars (string, store)).1 :: stack)
      (appendAll environment chars (string, store)).2 := by
  induction chars generalizing state position string store with
  | nil => exact stands.leads
  | cons c rest inductionHypothesis =>
      obtain ⟨pushCode, callCode, restCode⟩ := code
      have pushed : Leads environment program frame localCount 1 state (position + 1)
        ([string, BitVec.ofNat width c.toNat].reverse ++ stack) store := stands.push pushCode rfl
      have called := pushed.next fun next stands => stands.call callCode rfl
      refine ((called.next fun next stands => inductionHypothesis restCode stands).weaken
        (Nat.zero_le _)).at ?_
      simp only [List.flatMap_cons, List.length_append, List.length_cons, List.length_nil]
      omega

/-- A word of at most 32 bits does not tell a number from what 32 bits keep of it. -/
theorem ofNat_toUInt32_of_narrow (narrow : width ≤ 32) (number : Nat) :
    BitVec.ofNat width number.toUInt32.toNat = BitVec.ofNat width number := by
  apply BitVec.eq_of_toNat_eq
  rw [Nat.toUInt32, UInt32.toNat_ofNat', BitVec.toNat_ofNat, BitVec.toNat_ofNat,
    Nat.mod_mod_of_dvd _ (Nat.pow_dvd_pow 2 narrow)]

theorem stringCode_evaluates (narrow : width ≤ 32) (text : String) :
    Evaluates environment program frame localCount (stringCode text)
      (fun store => .ok (stringMeaning environment text store)) := by
  intro state position stack store code stands
  refine ⟨_, _, rfl, ?_⟩
  obtain ⟨pushCode, callCode, restCode⟩ := code
  have pushed : Leads environment program frame localCount 1 state (position + 1)
      ([BitVec.ofNat width text.length].reverse ++ stack) store :=
    stands.push pushCode (congrArg some (ofNat_toUInt32_of_narrow narrow text.length))
  have called := pushed.next fun next stands => stands.call callCode rfl
  refine ((called.next fun next stands => appendCode_leads text.toList restCode stands).weaken
    (Nat.zero_le _)).at ?_
  simp only [stringCode, List.length_cons]
  omega

/-- The receiver of a call is pushed if there is one. -/
theorem target_leads (environment : Environment width) (fits : frame.Fits context localCount)
    {receiver : Option String} {name className : String} {code : List Instruction}
    (targeted : frame.target receiver name = .ok (className, code)) {state : State width}
    {position : Nat} {stack : List (Word width)} {store : Store width}
    (placed : CodeAt program position code)
    (stands : Stands frame localCount state position stack store) :
    ∃ values, context.target store receiver name = .ok (className, values) ∧
      values.length = code.length ∧
      Leads environment program frame localCount 0 state (position + code.length)
        (values.reverse ++ stack) store := by
  have pushThis : program[position]? = some .pushThis →
      Leads environment program frame localCount 1 state (position + 1)
        (store.object :: stack) store := fun code =>
    stands.push code (by simp [State.read, stands.object])
  cases receiver with
  | none =>
      simp only [Frame.target, Frame.callsStatic, fits.signatures, fits.className] at targeted
      simp only [Context.target]
      cases known : context.signatures.get? context.className name with
      | none =>
          simp only [known] at targeted
          cases targeted
          exact ⟨_, rfl, rfl, (pushThis placed.1).weaken (Nat.zero_le _)⟩
      | some signature =>
          obtain ⟨returnType, kind, parameters⟩ := signature
          cases kind with
          | constructor =>
              simp only [known] at targeted
              cases targeted
              exact ⟨_, rfl, rfl, stands.leads⟩
          | function =>
              simp only [known] at targeted
              cases targeted
              exact ⟨_, rfl, rfl, stands.leads⟩
          | method =>
              simp only [known] at targeted
              cases targeted
              exact ⟨_, rfl, rfl, (pushThis placed.1).weaken (Nat.zero_le _)⟩
  | some receiver =>
      simp only [Frame.target, fits.binding?] at targeted
      simp only [Context.target]
      cases bound : context.binding? receiver with
      | none =>
          simp only [bound] at targeted
          cases targeted
          exact ⟨_, rfl, rfl, stands.leads⟩
      | some binding =>
          simp only [bound] at targeted
          cases typed : binding.type with
          | primitive type => simp [typed, DataType.className?] at targeted
          | object owner =>
              simp only [typed, DataType.className?] at targeted
              cases targeted
              refine ⟨[store.read binding], by simp [typed], rfl, ?_⟩
              exact (stands.pushVariable rfl (fits.local_lt receiver binding bound)
                placed.1).weaken (Nat.zero_le _)

variable (environment)

mutual

theorem Term.code_evaluates (narrow : width ≤ 32) (fits : frame.Fits context localCount) :
    (term : Term) → {code : List Instruction} → term.code frame = .ok code →
    Evaluates environment program frame localCount code (term.eval environment context)
  | .int value, code, generated => by
      cases generated
      intro state position stack store code stands
      exact ⟨_, _, rfl, (stands.push code.1 rfl).weaken (Nat.zero_le _)⟩
  | .string text, code, generated => by
      cases generated
      exact stringCode_evaluates narrow text
  | .constant value, code, generated => by
      cases generated
      exact value.code_evaluates
  | .var name, code, generated => by
      rw [Term.code] at generated
      obtain ⟨⟨segment, place⟩, resolved, generated⟩ := bind_eq_ok_iff.mp generated
      cases generated
      obtain ⟨binding, found, located, inside⟩ := lookup_of_resolve fits resolved
      intro state position stack store code stands
      refine ⟨store.read binding, store, by simp [Term.eval, found], ?_⟩
      exact (stands.pushVariable located inside code.1).weaken (Nat.zero_le _)
  | .item array index, code, generated => by
      rw [Term.code] at generated
      obtain ⟨⟨segment, place⟩, resolved, generated⟩ := bind_eq_ok_iff.mp generated
      obtain ⟨indexCode, indexGenerated, generated⟩ := bind_eq_ok_iff.mp generated
      cases generated
      obtain ⟨binding, found, located, inside⟩ := lookup_of_resolve fits resolved
      intro state position stack store code stands
      simp only [List.cons_append, codeAt_cons, codeAt_append] at code
      obtain ⟨pushCode, indexPlaced, addCode, readCode⟩ := code
      have pushed : Leads environment program frame localCount 1 state _ _ store :=
        stands.pushVariable located inside pushCode
      obtain ⟨middle, reached, stands⟩ := pushed
      obtain ⟨offset, next, evaluated, leads⟩ :=
        Expression.code_evaluates narrow fits index indexGenerated indexPlaced stands
      refine ⟨next.shared.memory (store.read binding + offset), next,
        by simp [Term.eval, found, evaluated], ?_⟩
      have added := leads.next fun later stands => stands.operate addCode rfl
      obtain ⟨last, reachedLast, standsLast⟩ :=
        added.next fun later stands => stands.readMemory readCode
      refine Leads.at ⟨last, (reached.trans reachedLast).weaken (Nat.zero_le _), standsLast⟩ ?_
      simp only [List.cons_append, List.length_cons, List.length_append, List.length_nil]
      omega
  | .paren inner, code, generated => by
      rw [Term.code] at generated
      simpa only [Term.eval] using Expression.code_evaluates narrow fits inner generated
  | .unary op operand, code, generated => by
      rw [Term.code] at generated
      obtain ⟨operandCode, operandGenerated, generated⟩ := bind_eq_ok_iff.mp generated
      cases generated
      intro state position stack store code stands
      simp only [codeAt_append, codeAt_cons] at code
      obtain ⟨value, next, evaluated, leads⟩ :=
        operand.code_evaluates narrow fits operandGenerated code.1 stands
      refine ⟨op.meaning value, next, by simp [Term.eval, evaluated], ?_⟩
      refine ((leads.next fun later stands => stands.operate code.2.1 ?_).weaken
        (Nat.zero_le _)).at (by simp; omega)
      cases op <;> rfl
  | .call call, code, generated => by
      rw [Term.code] at generated
      simpa only [Term.eval] using call.code_evaluates narrow fits generated

theorem Expression.code_evaluates (narrow : width ≤ 32) (fits : frame.Fits context localCount) :
    (elements : List Element) → {code : List Instruction} →
    Expression.code frame elements = .ok code →
    Evaluates environment program frame localCount code
      (Expression.eval environment context elements)
  | [.term last], code, generated => by
      rw [Expression.code_singleton] at generated
      simpa only [Expression.eval] using last.code_evaluates narrow fits generated
  | .term first :: .op op :: rest, code, generated => by
      obtain ⟨firstCode, restCode, firstGenerated, restGenerated, rfl⟩ :=
        Expression.code_operation generated
      intro state position stack store code stands
      simp only [codeAt_append, codeAt_cons] at code
      obtain ⟨⟨firstPlaced, restPlaced⟩, opCode, -⟩ := code
      obtain ⟨left, middle, firstEvaluated, between, reachedMiddle, standsMiddle⟩ :=
        first.code_evaluates narrow fits firstGenerated firstPlaced stands
      obtain ⟨right, next, restEvaluated, leads⟩ :=
        Expression.code_evaluates narrow fits rest restGenerated restPlaced standsMiddle
      refine ⟨(op.meaning environment left right next).1,
        (op.meaning environment left right next).2,
        by simp [Expression.eval, firstEvaluated, restEvaluated], ?_⟩
      obtain ⟨last, reachedLast, standsLast⟩ := leads.next fun later stands =>
        stands.binary (by simpa [Nat.add_assoc] using opCode)
      refine Leads.at
        ⟨last, (reachedMiddle.trans reachedLast).weaken (Nat.zero_le _), standsLast⟩ ?_
      simp only [List.length_append, List.length_cons, List.length_nil]
      omega
  | [], _, generated => by simp [Expression.code] at generated
  | .op _ :: _, _, generated => by simp [Expression.code] at generated
  | .term _ :: .term _ :: _, _, generated => by
      rcases Expression.code_cases generated with ⟨_, impossible⟩ | ⟨_, _, _, impossible⟩ <;>
        simp at impossible

theorem Call.code_evaluates (narrow : width ≤ 32) (fits : frame.Fits context localCount) :
    (call : Call) → {code : List Instruction} → call.code frame = .ok code →
    Evaluates environment program frame localCount code (call.eval environment context)
  | .mk receiver name arguments, code, generated => by
      rw [Call.code] at generated
      obtain ⟨⟨className, receiverCode⟩, targeted, generated⟩ := bind_eq_ok_iff.mp generated
      obtain ⟨-, -, generated⟩ := bind_eq_ok_iff.mp generated
      obtain ⟨argumentsCode, argumentsGenerated, generated⟩ := bind_eq_ok_iff.mp generated
      cases generated
      intro state position stack store code stands
      simp only [codeAt_append, codeAt_cons] at code
      obtain ⟨⟨receiverPlaced, argumentsPlaced⟩, callCode, -⟩ := code
      obtain ⟨receivers, targetFound, receiverCount, middle, reached, standsMiddle⟩ :=
        target_leads environment fits targeted receiverPlaced stands
      obtain ⟨values, next, evaluated, counted, leads⟩ :=
        Call.argumentsCode_leads narrow fits arguments argumentsGenerated argumentsPlaced
          standsMiddle
      refine ⟨(next.call environment (qualifiedName className name) (receivers ++ values)).1,
        (next.call environment (qualifiedName className name) (receivers ++ values)).2,
        by simp [Call.eval, targetFound, evaluated], ?_⟩
      have arranged : values.reverse ++ (receivers.reverse ++ stack) =
          (receivers ++ values).reverse ++ stack := by simp
      rw [arranged] at leads
      obtain ⟨last, reachedLast, standsLast⟩ := leads.next fun later stands =>
        stands.call (by simpa [Nat.add_assoc] using callCode) (by simp [receiverCount, counted])
      refine Leads.at
        ⟨last, (reached.trans reachedLast).weaken (Nat.zero_le _), standsLast⟩ ?_
      simp only [List.length_append, List.length_cons, List.length_nil]
      omega

/-- The arguments of a call are pushed one after the other. -/
theorem Call.argumentsCode_leads (narrow : width ≤ 32) (fits : frame.Fits context localCount) :
    (arguments : List (List Element)) → {code : List Instruction} →
    Call.argumentsCode frame arguments = .ok code → {state : State width} → {position : Nat} →
    {stack : List (Word width)} → {store : Store width} → CodeAt program position code →
    Stands frame localCount state position stack store →
    ∃ values next, Call.evalArguments environment context arguments store = .ok (values, next) ∧
      values.length = arguments.length ∧
      Leads environment program frame localCount 0 state (position + code.length)
        (values.reverse ++ stack) next
  | [], code, generated, state, position, stack, store, placed, stands => by
      cases generated
      exact ⟨[], store, rfl, rfl, stands.leads⟩
  | first :: rest, code, generated, state, position, stack, store, placed, stands => by
      rw [Call.argumentsCode] at generated
      obtain ⟨firstCode, firstGenerated, generated⟩ := bind_eq_ok_iff.mp generated
      obtain ⟨restCode, restGenerated, generated⟩ := bind_eq_ok_iff.mp generated
      cases generated
      simp only [codeAt_append] at placed
      obtain ⟨value, middle, firstEvaluated, between, reachedMiddle, standsMiddle⟩ :=
        Expression.code_evaluates narrow fits first firstGenerated placed.1 stands
      obtain ⟨values, next, restEvaluated, counted, last, reachedLast, standsLast⟩ :=
        Call.argumentsCode_leads narrow fits rest restGenerated placed.2 standsMiddle
      refine ⟨value :: values, next, by simp [Call.evalArguments, firstEvaluated, restEvaluated],
        by simp [counted], last, reachedMiddle.trans reachedLast, ?_⟩
      simpa [Nat.add_assoc] using standsLast

end

end

end ClassLang
