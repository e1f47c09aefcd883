import ClassLang.Proofs.Blocks
import ClassLang.Proofs.Simulation.Statement

/-!
The code of a class keeps the meaning of its subroutines. On every input the machine ends as the
subroutine does, with the same value and the same shared state, or both run forever.
-/

namespace ClassLang

open Vm

variable {width : Nat}

namespace Subroutine

variable (environment : Environment width) (cls : Class) (signatures : SignatureTable)
  (subroutine : Subroutine) (arguments : Nat → Word width) (object : Word width)
  (shared : Shared width)

/-- The subroutine comes to an end within some number of rounds for its loops. -/
def Ends (ending : Ending width) : Prop :=
  ∃ bound outcome, subroutine.exec environment cls signatures bound
    (subroutine.entry environment cls arguments object shared) = .ok outcome ∧
    outcome.ending = ending

/-- No number of rounds is enough. -/
def Diverges : Prop :=
  ∀ bound, subroutine.exec environment cls signatures bound
    (subroutine.entry environment cls arguments object shared) = .error .unfinished

end Subroutine

/-- From a state, the code of a subroutine does what the subroutine means. -/
structure Implements (environment : Environment width) (cls : Class)
    (signatures : SignatureTable) (subroutine : Subroutine) (block : List Instruction)
    (state : State width) : Prop where
  ends : ∀ ending, Vm.Ends environment block state ending ↔
    subroutine.Ends environment cls signatures state.arguments state.thisPointer state.shared
      ending
  diverges : Vm.Diverges environment block state ↔
    subroutine.Diverges environment cls signatures state.arguments state.thisPointer state.shared
  /-- The subroutine is never without a meaning. -/
  total : (∃ ending, subroutine.Ends environment cls signatures state.arguments
      state.thisPointer state.shared ending) ∨
    subroutine.Diverges environment cls signatures state.arguments state.thisPointer state.shared

section

variable {environment : Environment width} {program : List Instruction} {frame : Frame}
  {localCount : Nat} {state : State width}

theorem Follows.ends {least : Nat} {outcome : Outcome width}
    (follows : Follows environment program frame localCount least state program.length
      (.ok outcome)) :
    Vm.Ends environment program state outcome.ending := by
  match outcome, follows with
  | .finished store, ⟨last, ⟨steps, _, ran⟩, stands⟩ =>
      refine ⟨steps, last, ran, ?_⟩
      simp [State.ending?, stands.position, stands.shared, Outcome.ending]
  | .returned value store, ⟨last, ⟨steps, _, ran⟩, ended⟩ => exact ⟨steps, last, ran, ended⟩

/-- Whatever happens within a bound, the machine has ended as the program does or is still
running. -/
theorem Follows.cases {bound : Nat} {result : Except Interruption (Outcome width)}
    (follows : Follows environment program frame localCount bound state program.length result) :
    (∃ outcome, result = .ok outcome ∧ Vm.Ends environment program state outcome.ending) ∨
      result = .error .unfinished ∧
        ∃ later, Reaches environment program bound state later := by
  match result, follows with
  | .ok outcome, follows => exact .inl ⟨outcome, rfl, follows.ends⟩
  | .error .unfinished, ranOn => exact .inr ⟨rfl, ranOn⟩

/-- If the machine follows the results within all bounds, it ends exactly as they do. -/
theorem ends_iff_of_follows {results : Nat → Except Interruption (Outcome width)}
    (follows : ∀ bound, Follows environment program frame localCount bound state program.length
      (results bound)) (ending : Ending width) :
    Vm.Ends environment program state ending ↔
      ∃ bound outcome, results bound = .ok outcome ∧ outcome.ending = ending := by
  constructor
  · intro ends
    obtain ⟨steps, final, ran, ended⟩ := ends
    -- With more rounds than the machine takes steps, the result is there.
    rcases (follows (steps + 1)).cases with ⟨outcome, result, endsAlso⟩ | ⟨-, later, reached⟩
    · exact ⟨steps + 1, outcome, result, endsAlso.unique ⟨steps, final, ran, ended⟩⟩
    · obtain ⟨further, enough, ranOn⟩ := reached
      have atMost := run_le_of_ending ran ended ranOn
      omega
  · rintro ⟨bound, outcome, result, rfl⟩
    have followsBound := follows bound
    rw [result] at followsBound
    exact followsBound.ends

theorem diverges_iff_of_follows {results : Nat → Except Interruption (Outcome width)}
    (follows : ∀ bound, Follows environment program frame localCount bound state program.length
      (results bound)) :
    Vm.Diverges environment program state ↔ ∀ bound, results bound = .error .unfinished := by
  constructor
  · intro diverges bound
    rcases (follows bound).cases with ⟨outcome, -, ends⟩ | ⟨result, -⟩
    · exact absurd diverges ends.not_diverges
    · exact result
  · intro unfinished steps
    have followsSteps := follows steps
    rw [unfinished steps] at followsSteps
    obtain ⟨later, further, enough, ran⟩ := followsSteps
    have split : further = steps + (further - steps) := by omega
    rw [split, run_add] at ran
    obtain ⟨next, reached, -⟩ := Option.bind_eq_some_iff.mp ran
    exact ⟨next, reached⟩

end

section

variable {environment : Environment width} {cls : Class} {signatures : SignatureTable}
  {subroutine : Subroutine} {members own : SymbolTable} {block : List Instruction}
  {state : State width}

/-- The tables of a class and a subroutine know what the declarations say. -/
theorem Subroutine.frame_fits (signatures : SignatureTable)
    (recordsMembers : members.Records cls.declarations)
    (recordsOwn : own.Records subroutine.declarations) :
    (subroutine.frame cls.name signatures members own).Fits (subroutine.context cls signatures)
      (own.count .local) where
  className := rfl
  signatures := rfl
  binding? name := by
    simp [Subroutine.frame, Scope.get?, Subroutine.context, Class.locate?, recordsMembers.get?,
      recordsOwn.get?]
  local_lt name binding located stored := by
    rw [recordsOwn.count, ← stored]
    simp only [Subroutine.context, Class.locate?] at located
    cases inside : locate? subroutine.declarations name with
    | some other =>
        rw [inside] at located
        cases located
        exact index_lt_of_locate? inside
    | none =>
        rw [inside] at located
        have below := index_lt_of_locate? located
        rw [cls.population_declarations (.inr stored)] at below
        omega

/-- Before the body, the machine stands for the store on entry. -/
theorem entry_leads {localCount : Nat} {program : List Instruction} {frame : Frame}
    {name : String} (sameKind : frame.kind = subroutine.kind)
    (placed : CodeAt program 0 (.function name localCount ::
      subroutine.kind.entryCode (population cls.declarations .field)))
    (atStart : state.position = 0) (empty : state.stack = []) :
    Leads environment program frame localCount 0 state
      (1 + (subroutine.kind.entryCode (population cls.declarations .field)).length) []
      (subroutine.entry environment cls state.arguments state.thisPointer state.shared) := by
  obtain ⟨headCode, entryPlaced⟩ := placed
  let started : State width := { state.proceed [] with
    locals := fun index => if index < localCount then 0 else state.locals index }
  have reached : Reaches environment program 1 state started := by
    apply Reaches.of_step
    simp [step, atStart, headCode, empty, started]
  have stands : Stands frame localCount started 1 []
      ⟨fun index => state.arguments (index + frame.shift), fun _ => 0, state.thisPointer,
        state.shared⟩ :=
    { position := by simp [started, State.proceed, atStart]
      stack := rfl
      parameters := fun _ => rfl
      locals := fun index below => by simp [started, below]
      object := rfl
      shared := rfl }
  have entered : Leads environment program frame localCount 0 started
      (1 + (subroutine.kind.entryCode (population cls.declarations .field)).length) []
      (subroutine.entry environment cls state.arguments state.thisPointer state.shared) := by
    cases kind : subroutine.kind with
    | function =>
        simp only [Frame.shift, sameKind, kind] at stands
        simpa [SubroutineKind.entryCode, Subroutine.entry, kind] using stands.leads
    | method =>
        simp only [Frame.shift, sameKind, kind] at stands
        simp only [kind, SubroutineKind.entryCode, codeAt_cons] at entryPlaced
        obtain ⟨pushCode, popCode, -⟩ := entryPlaced
        have reads : started.read .argument 0 = some (state.arguments 0) := rfl
        have pushed : Leads environment program frame localCount 1 started 2
          [state.arguments 0] _ := stands.push pushCode reads
        have popped := pushed.next fun next stands => stands.popObject popCode
        simpa [SubroutineKind.entryCode, Subroutine.entry, kind] using
          popped.weaken (Nat.zero_le _)
    | constructor =>
        simp only [Frame.shift, sameKind, kind] at stands
        simp only [kind, SubroutineKind.entryCode, codeAt_cons] at entryPlaced
        obtain ⟨pushCode, callCode, popCode, -⟩ := entryPlaced
        have pushed : Leads environment program frame localCount 1 started 2
          ([BitVec.ofNat width (population cls.declarations .field)].reverse ++ []) _ :=
          stands.push pushCode rfl
        have called := pushed.next fun next stands => stands.call callCode rfl
        have popped := called.next fun next stands => stands.popObject popCode
        simpa [SubroutineKind.entryCode, Subroutine.entry, kind, Store.call] using
          popped.weaken (Nat.zero_le _)
  obtain ⟨last, reachedLast, standsLast⟩ := entered
  exact ⟨last, (reached.trans reachedLast).weaken (Nat.zero_le _), standsLast⟩

/-- Within every bound, the machine follows the subroutine to the end of its code. -/
theorem Subroutine.code_follows (narrow : width ≤ 32) (environment : Environment width)
    (built : SymbolTable.ofClass cls = .ok members)
    (generated : subroutine.code cls.name members signatures = .ok block)
    (atStart : state.position = 0) (empty : state.stack = []) :
    ∃ frame localCount, ∀ bound,
      Follows environment block frame localCount bound state block.length
        (subroutine.exec environment cls signatures bound
          (subroutine.entry environment cls state.arguments state.thisPointer state.shared)) := by
  obtain ⟨own, bodyCode, after, builtOwn, bodyGenerated, shape⟩ :=
    Subroutine.code_eq_ok generated
  have recordsMembers := SymbolTable.records_ofClass built
  have fits := Subroutine.frame_fits signatures recordsMembers
    (SymbolTable.records_ofSubroutine builtOwn)
  rw [recordsMembers.count] at shape
  have unique : (labelNames block).Nodup := by
    have unlabelled := labelNames_eq_nil (subroutine.kind.entryCode_plain
      (population cls.declarations .field))
    simpa [shape, unlabelled] using (Statement.codeAll_spent subroutine.body bodyGenerated).nodup
  have placed : CodeAt block 0 block := by simpa using codeAt_self [] block []
  nth_rewrite 2 [shape] at placed
  obtain ⟨entryPlaced, bodyPlaced⟩ := codeAt_append.mp placed
  rw [Nat.zero_add, List.length_cons, Nat.add_comm] at bodyPlaced
  refine ⟨subroutine.frame cls.name signatures members own, own.count .local, fun bound => ?_⟩
  have entered : Leads environment block (subroutine.frame cls.name signatures members own) _ 0 state
    _ [] _ := entry_leads rfl entryPlaced atStart empty
  have followed := entered.follows fun next stands =>
    Statement.codeAll_follows narrow unique fits bound subroutine.body bodyGenerated bodyPlaced stands
  refine (followed.weaken (Nat.le_add_left _ _)).at ?_
  simp only [shape, List.length_append, List.length_cons]
  omega

theorem Subroutine.code_implements (narrow : width ≤ 32)
    (built : SymbolTable.ofClass cls = .ok members)
    (generated : subroutine.code cls.name members signatures = .ok block)
    (atStart : state.position = 0) (empty : state.stack = []) :
    Implements environment cls signatures subroutine block state := by
  obtain ⟨frame, localCount, follows⟩ :=
    Subroutine.code_follows narrow environment built generated atStart empty
  refine ⟨ends_iff_of_follows follows, diverges_iff_of_follows follows, ?_⟩
  by_cases ended : ∃ ending, subroutine.Ends environment cls signatures state.arguments
      state.thisPointer state.shared ending
  · exact .inl ended
  · refine .inr fun bound => ?_
    rcases (follows bound).cases with ⟨outcome, result, -⟩ | ⟨result, -⟩
    · exact absurd ⟨outcome.ending, bound, outcome, result, rfl⟩ ended
    · exact result

end

/-- The block has the name and the locals of the subroutine and does what it means, with words
of any width up to 32 bits and whatever the other subroutines are. On wider words the length of a
string may be lost, since code has room for 32 bits of it. -/
def Realizes (cls : Class) (signatures : SignatureTable) (subroutine : Subroutine)
    (block : List Instruction) : Prop :=
  block.head? = some (.function (qualifiedName cls.name subroutine.name)
    (population subroutine.declarations .local)) ∧
  ∀ (width : Nat) (environment : Environment width) (state : State width), width ≤ 32 →
    state.position = 0 → state.stack = [] →
    Implements environment cls signatures subroutine block state

/-- Block by block, the code of a class realizes its subroutines. -/
theorem Class.code_preserves_meaning {cls : Class} {signatures : SignatureTable}
    {code : List Instruction} (generated : cls.code signatures = .ok code) :
    List.Forall₂ (Realizes cls signatures) cls.subroutines (blocks code) := by
  obtain ⟨members, built, matched⟩ := Class.blocks_code generated
  refine matched.imp fun subroutine block blockGenerated => ⟨?_, ?_⟩
  · obtain ⟨own, bodyCode, after, builtOwn, -, rfl⟩ := Subroutine.code_eq_ok blockGenerated
    simp [(SymbolTable.records_ofSubroutine builtOwn).count]
  · intro width environment state narrow atStart empty
    exact Subroutine.code_implements narrow built blockGenerated atStart empty

/-- A field that a method raises to a limit, one by one. -/
def gauge : Class where
  name := "Gauge"
  members := [⟨.field, .primitive .int, ["level"]⟩]
  subroutines := [
    { kind := .method
      returnType := .value (.primitive .int)
      name := "raise"
      parameters := [⟨.primitive .int, "limit"⟩]
      locals := []
      body := [
        .while [.term (.var "level"), .op .less, .term (.var "limit")]
          [.let "level" none [.term (.var "level"), .op .add, .term (.int 1)]],
        .return (some [.term (.var "level")])] }]

def gaugeCode : List Instruction :=
  [.function "Gauge.raise" 0, .push .argument 0, .pop .pointer 0,
    .label "WHILE_EXP0", .push .this 0, .push .argument 1, .operate .lt, .operate .not,
    .ifGoto "WHILE_END0",
    .push .this 0, .push .constant 1, .operate .add, .pop .this 0,
    .goto "WHILE_EXP0", .label "WHILE_END0", .push .this 0, .return]

theorem gauge_code_realizes :
    gauge.code {} = .ok gaugeCode ∧
      List.Forall₂ (Realizes gauge {}) gauge.subroutines (blocks gaugeCode) :=
  ⟨rfl, Class.code_preserves_meaning rfl⟩

end ClassLang
