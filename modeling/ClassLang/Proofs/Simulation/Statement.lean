import ClassLang.Proofs.Labels
import ClassLang.Proofs.Simulation.Expression

/-!
The code of a statement does to the machine what the statement does to the store. Where a loop
has no result within a bound, the machine takes at least as many steps as the bound says.
-/

namespace ClassLang

open Vm

variable {width : Nat}

/-- What the machine makes of a result: it gets to the end of the code, or ends with a value,
or runs on. It never meets a meaningless statement. -/
def Follows (environment : Environment width) (program : List Instruction) (frame : Frame)
    (localCount least : Nat) (state : State width) (finish : Nat) :
    Except Interruption (Outcome width) → Prop
  | .ok (.finished store) => Leads environment program frame localCount 0 state finish [] store
  | .ok (.returned value store) => ∃ last, Reaches environment program 0 state last ∧
      last.ending? program = some (.returned value store.shared)
  | .error .unfinished => ∃ later, Reaches environment program least state later
  | .error .meaningless => False

section

variable {environment : Environment width} {program : List Instruction} {frame : Frame}
  {localCount : Nat} {context : Context} {state : State width}

theorem Follows.weaken {more less finish : Nat} {result : Except Interruption (Outcome width)}
    (follows : Follows environment program frame localCount more state finish result)
    (fewer : less ≤ more) :
    Follows environment program frame localCount less state finish result := by
  match result, follows with
  | .ok (.finished _), follows => exact follows
  | .ok (.returned _ _), follows => exact follows
  | .error .unfinished, ⟨later, reached⟩ => exact ⟨later, reached.weaken fewer⟩

/-- What holds from a later state on holds from an earlier one, with more steps. -/
theorem Follows.of_reaches {before least finish : Nat} {next : State width}
    {result : Except Interruption (Outcome width)}
    (reached : Reaches environment program before state next)
    (follows : Follows environment program frame localCount least next finish result) :
    Follows environment program frame localCount (before + least) state finish result := by
  match result, follows with
  | .ok (.finished _), ⟨last, reachedLast, stands⟩ =>
      exact ⟨last, (reached.trans reachedLast).weaken (Nat.zero_le _), stands⟩
  | .ok (.returned _ _), ⟨last, reachedLast, ended⟩ =>
      exact ⟨last, (reached.trans reachedLast).weaken (Nat.zero_le _), ended⟩
  | .error .unfinished, ⟨later, reachedLater⟩ => exact ⟨later, reached.trans reachedLater⟩

theorem Leads.follows {before least position finish : Nat} {stack : List (Word width)}
    {store : Store width} {result : Except Interruption (Outcome width)}
    (leads : Leads environment program frame localCount before state position stack store)
    (follows : ∀ next, Stands frame localCount next position stack store →
      Follows environment program frame localCount least next finish result) :
    Follows environment program frame localCount (before + least) state finish result := by
  obtain ⟨next, reached, stands⟩ := leads
  exact .of_reaches reached (follows next stands)

theorem Follows.proceed {least middle finish : Nat}
    {result : Except Interruption (Outcome width)}
    {rest : Store width → Except Interruption (Outcome width)}
    (follows : Follows environment program frame localCount least state middle result)
    (further : ∀ next store, Stands frame localCount next middle [] store →
      Follows environment program frame localCount least next finish (rest store)) :
    Follows environment program frame localCount least state finish
      (ClassLang.proceed result rest) := by
  match result, follows with
  | .ok (.finished store), leads =>
      have followed : Follows environment program frame localCount (0 + least) state finish
        (rest store) := Leads.follows leads fun next stands => further next store stands
      exact followed.weaken (by omega)
  | .ok (.returned _ _), ended => exact ended
  | .error .unfinished, ranOn => exact ranOn

/-- Code that leaves the store alone may follow. -/
theorem Follows.extend {least before middle finish : Nat}
    {result : Except Interruption (Outcome width)}
    (follows : Follows environment program frame localCount least state middle result)
    (further : ∀ next store, Stands frame localCount next middle [] store →
      Leads environment program frame localCount before next finish [] store) :
    Follows environment program frame localCount least state finish result := by
  match result, follows with
  | .ok (.finished store), leads =>
      exact (leads.next fun next stands => further next store stands).weaken (Nat.zero_le _)
  | .ok (.returned _ _), ended => exact ended
  | .error .unfinished, ranOn => exact ranOn

theorem Follows.at {least finish other : Nat} {result : Except Interruption (Outcome width)}
    (follows : Follows environment program frame localCount least state finish result)
    (equal : finish = other) :
    Follows environment program frame localCount least state other result :=
  equal ▸ follows

/-- A loop goes back to its condition at most as often as there are rounds left, and every
round takes at least one step. -/
theorem rounds_follows (unique : (labelNames program).Nodup) {start bound : Nat}
    {startName endName : String} {conditionCode bodyCode : List Instruction}
    {condition : Store width → Except Interruption (Word width × Store width)}
    {body : Store width → Except Interruption (Outcome width)}
    (placed : CodeAt program start (.label startName :: conditionCode ++
      [.operate .not, .ifGoto endName] ++ bodyCode ++ [.goto startName, .label endName]))
    (evaluates : Evaluates environment program frame localCount conditionCode condition)
    (followsBody : ∀ state store,
      Stands frame localCount state (start + 1 + conditionCode.length + 2) [] store →
      Follows environment program frame localCount bound state
        (start + 1 + conditionCode.length + 2 + bodyCode.length) (body store))
    (remaining : Nat) (within : remaining ≤ bound) {state : State width} {store : Store width}
    (stands : Stands frame localCount state start [] store) :
    Follows environment program frame localCount remaining state
      (start + 1 + conditionCode.length + 2 + bodyCode.length + 2)
      (rounds condition body remaining store) := by
  simp only [List.cons_append, List.nil_append, List.append_assoc, codeAt_cons,
    codeAt_append] at placed
  obtain ⟨startLabel, conditionPlaced, notCode, exitCode, bodyPlaced, backCode, endLabel, -⟩ :=
    placed
  induction remaining generalizing state store with
  | zero => exact ⟨state, .refl state⟩
  | succ remaining inductionHypothesis =>
      have labelled : Leads environment program frame localCount 1 state (start + 1) [] store :=
        stands.label startLabel
      obtain ⟨tested, reachedTested, standsTested⟩ := labelled
      obtain ⟨value, next, evaluated, leads⟩ := evaluates conditionPlaced standsTested
      have negated := leads.next fun later stands => stands.operate notCode rfl
      simp only [rounds, evaluated, ok_bind]
      rw [Nat.add_comm remaining 1]
      apply Follows.of_reaches reachedTested
      by_cases goesOn : value = truth true
      · subst goesOn
        have cleared : ~~~(truth true : Word width) = 0 := by simp [truth]
        rw [cleared] at negated
        have entered := negated.next fun later stands => stands.ifGoto_zero exitCode
        rw [if_pos rfl]
        refine (entered.follows fun later stands => ?_).weaken (Nat.le_add_left _ _)
        refine ((followsBody later next stands).weaken (by omega)).proceed ?_
        intro last store stands
        have back : Leads environment program frame localCount 1 last start [] store :=
          stands.goto backCode (idxOf?_label unique startLabel)
        exact (back.follows fun again stands =>
          inductionHypothesis (by omega) stands).weaken (Nat.le_add_left _ _)
      · have kept : ~~~value ≠ 0 := by
          intro cleared
          apply goesOn
          rw [← @BitVec.not_not width value, cleared]
          simp [truth]
        have left := negated.next fun later stands =>
          stands.ifGoto_nonzero exitCode kept (idxOf?_label unique endLabel)
        rw [if_neg goesOn]
        exact (left.next fun later stands => stands.label endLabel).weaken (Nat.zero_le _)

theorem Leads.returns {least position : Nat} {value : Word width} {stack : List (Word width)}
    {store : Store width}
    (leads : Leads environment program frame localCount least state position (value :: stack)
      store)
    (code : program[position]? = some .return) :
    ∃ last, Reaches environment program 0 state last ∧
      last.ending? program = some (.returned value store.shared) := by
  obtain ⟨last, reached, stands⟩ := leads
  refine ⟨last, reached.weaken (Nat.zero_le _), ?_⟩
  simp [State.ending?, stands.position, code, stands.stack, stands.shared]

namespace Statement

mutual

theorem code_follows (narrow : width ≤ 32) (unique : (labelNames program).Nodup)
    (fits : frame.Fits context localCount) (bound : Nat) : (statement : Statement) →
    {labels after : Labels} → {code : List Instruction} →
    statement.code frame labels = .ok (code, after) → {state : State width} →
    {position : Nat} → {store : Store width} → CodeAt program position code →
    Stands frame localCount state position [] store →
    Follows environment program frame localCount bound state (position + code.length)
      (statement.exec environment context bound store)
  | .let name none value, _, _, _, generated, state, position, store, placed, stands => by
      obtain ⟨segment, place, valueCode, resolved, valueGenerated, rfl, rfl⟩ :=
        code_let generated
      obtain ⟨binding, found, located, -⟩ := lookup_of_resolve fits resolved
      simp only [codeAt_append, codeAt_cons] at placed
      obtain ⟨valuePlaced, popCode, -⟩ := placed
      obtain ⟨result, next, evaluated, leads⟩ :=
        Expression.code_evaluates environment narrow fits value valueGenerated valuePlaced stands
      have popCode : program[position + valueCode.length]? =
          some (.pop (frame.location binding).1 (frame.location binding).2) := by
        rw [located, popCode]
      have popped := leads.next fun later stands => stands.popVariable popCode
      simp only [exec, found, evaluated, ok_bind, pure_eq_ok]
      exact (popped.weaken (Nat.zero_le _)).at (by simp; omega)
  | .let name (some index) value, _, _, _, generated, state, position, store, placed,
      stands => by
      obtain ⟨segment, place, indexCode, valueCode, resolved, indexGenerated, valueGenerated,
        rfl, rfl⟩ := code_letItem generated
      obtain ⟨binding, found, located, inside⟩ := lookup_of_resolve fits resolved
      simp only [List.cons_append, List.nil_append, List.append_assoc, codeAt_cons,
        codeAt_append] at placed
      obtain ⟨pushCode, indexPlaced, addCode, valuePlaced, storeCode⟩ := placed
      have leadsPushed : Leads environment program frame localCount 1 state _ _ store :=
        stands.pushVariable located inside pushCode
      obtain ⟨pushed, reachedPushed, standsPushed⟩ := leadsPushed
      obtain ⟨offset, middle, indexEvaluated, indexLeads⟩ :=
        Expression.code_evaluates environment narrow fits index indexGenerated indexPlaced
          standsPushed
      obtain ⟨added, reachedAdded, standsAdded⟩ := indexLeads.next fun later stands =>
        stands.operate addCode rfl
      obtain ⟨result, next, valueEvaluated, valueLeads⟩ :=
        Expression.code_evaluates environment narrow fits value valueGenerated valuePlaced
          standsAdded
      obtain ⟨stored, reachedStored, standsStored⟩ := valueLeads.next fun later stands =>
        stands.writeMemory storeCode
      simp only [exec, found, indexEvaluated, valueEvaluated, ok_bind, pure_eq_ok]
      have reached := (reachedPushed.trans reachedAdded).trans reachedStored
      exact Leads.at ⟨stored, reached.weaken (Nat.zero_le _), standsStored⟩
        (by simp only [List.cons_append, List.length_cons, List.length_append,
          List.length_nil]; omega)
  | .if condition thenBranch elseBranch, _, _, _, generated, state, position, store, placed,
      stands => by
      obtain ⟨conditionCode, thenCode, middle, elseCode, conditionGenerated, thenGenerated,
        elseGenerated, rfl⟩ := code_if generated
      simp only [List.cons_append, List.nil_append, List.append_assoc, codeAt_cons,
        codeAt_append] at placed
      obtain ⟨conditionPlaced, testCode, elseCodePlaced, trueLabel, thenPlaced, endCode,
        falseLabel, elsePlaced, endLabel, -⟩ := placed
      obtain ⟨value, next, evaluated, leads⟩ :=
        Expression.code_evaluates environment narrow fits condition conditionGenerated
          conditionPlaced stands
      simp only [exec, evaluated, ok_bind]
      by_cases zero : value = 0
      · subst zero
        have passed := leads.next fun later stands => stands.ifGoto_zero testCode
        have jumped := passed.next fun later stands =>
          stands.goto elseCodePlaced (idxOf?_label unique falseLabel)
        have entered := jumped.next fun later stands => stands.label falseLabel
        rw [if_pos rfl]
        have follows := entered.follows fun later stands =>
          (codeAll_follows narrow unique fits bound elseBranch elseGenerated elsePlaced
            stands).extend fun last store stands => stands.label endLabel
        exact (follows.weaken (Nat.le_add_left _ _)).at (by simp; omega)
      · have jumped := leads.next fun later stands =>
          stands.ifGoto_nonzero testCode zero (idxOf?_label unique trueLabel)
        have entered := jumped.next fun later stands => stands.label trueLabel
        rw [if_neg zero]
        have follows := entered.follows fun later stands =>
          (codeAll_follows narrow unique fits bound thenBranch thenGenerated thenPlaced
            stands).extend fun last store stands =>
              (stands.goto endCode (idxOf?_label unique endLabel)).next
                fun later stands => stands.label endLabel
        exact (follows.weaken (Nat.le_add_left _ _)).at (by simp; omega)
  | .while condition body, _, _, _, generated, state, position, store, placed, stands => by
      obtain ⟨conditionCode, bodyCode, conditionGenerated, bodyGenerated, rfl⟩ :=
        code_while generated
      have evaluates : Evaluates environment program frame localCount conditionCode _ :=
        Expression.code_evaluates environment narrow fits condition conditionGenerated
      have followsBody : ∀ state store,
          Stands frame localCount state (position + 1 + conditionCode.length + 2) [] store →
          Follows environment program frame localCount bound state
            (position + 1 + conditionCode.length + 2 + bodyCode.length)
            (execAll environment context bound body store) := by
        intro state store stands
        simp only [List.cons_append, List.nil_append, List.append_assoc, codeAt_cons,
          codeAt_append] at placed
        exact codeAll_follows narrow unique fits bound body bodyGenerated placed.2.2.2.2.1 stands
      rw [exec]
      exact (rounds_follows unique placed evaluates followsBody bound (Nat.le_refl bound)
        stands).at (by simp; omega)
  | .do call, _, _, _, generated, state, position, store, placed, stands => by
      obtain ⟨callCode, callGenerated, rfl, rfl⟩ := code_do generated
      simp only [codeAt_append, codeAt_cons] at placed
      obtain ⟨callPlaced, popCode, -⟩ := placed
      obtain ⟨value, next, evaluated, leads⟩ :=
        call.code_evaluates environment narrow fits callGenerated callPlaced stands
      simp only [exec, evaluated, ok_bind, pure_eq_ok]
      exact ((leads.next fun later stands => stands.discard popCode).weaken
        (Nat.zero_le _)).at (by simp; omega)
  | .return none, _, _, _, generated, state, position, store, placed, stands => by
      cases generated
      obtain ⟨pushCode, returnCode, -⟩ := placed
      exact (stands.push pushCode rfl).returns returnCode
  | .return (some value), _, _, _, generated, state, position, store, placed, stands => by
      obtain ⟨valueCode, valueGenerated, rfl, rfl⟩ := code_return generated
      simp only [codeAt_append, codeAt_cons] at placed
      obtain ⟨valuePlaced, returnCode, -⟩ := placed
      obtain ⟨result, next, evaluated, leads⟩ :=
        Expression.code_evaluates environment narrow fits value valueGenerated valuePlaced stands
      simp only [exec, evaluated, ok_bind, pure_eq_ok]
      exact leads.returns returnCode

theorem codeAll_follows (narrow : width ≤ 32) (unique : (labelNames program).Nodup)
    (fits : frame.Fits context localCount) (bound : Nat) : (statements : List Statement) →
    {labels after : Labels} → {code : List Instruction} →
    codeAll frame statements labels = .ok (code, after) → {state : State width} →
    {position : Nat} → {store : Store width} → CodeAt program position code →
    Stands frame localCount state position [] store →
    Follows environment program frame localCount bound state (position + code.length)
      (execAll environment context bound statements store)
  | [], _, _, _, generated, state, position, store, placed, stands => by
      cases generated
      exact stands.leads
  | first :: rest, _, _, _, generated, state, position, store, placed, stands => by
      obtain ⟨firstCode, middle, restCode, firstGenerated, restGenerated, rfl⟩ :=
        codeAll_cons generated
      simp only [codeAt_append] at placed
      have follows := code_follows narrow unique fits bound first firstGenerated placed.1 stands
      rw [List.length_append, ← Nat.add_assoc]
      exact follows.proceed fun next store stands =>
        codeAll_follows narrow unique fits bound rest restGenerated placed.2 stands

end

end Statement

end

end ClassLang
