import ClassLang.Proofs.BuildPhases
import ClassLang.Proofs.CodeShape
import ClassLang.Proofs.RoundTrip

/-!
Every expression that is read from a text is a chain of terms with operators between them, at any
depth: in brackets, indices and arguments, in conditions and in values. So code generation never
finds a malformed expression in a class that was read, and every syntax error of a build comes
from reading.
-/

namespace ClassLang

/-! Expressions that alternate. -/

mutual

/-- Every expression inside the term alternates. -/
def Term.Alternates : Term → Prop
  | .int _ => True
  | .string _ => True
  | .constant _ => True
  | .var _ => True
  | .item _ index => Expression.Alternates index
  | .paren inner => Expression.Alternates inner
  | .unary _ operand => operand.Alternates
  | .call call => call.Alternates

/-- A term, or a term and an operator before another such expression. -/
def Expression.Alternates : List Element → Prop
  | [.term last] => last.Alternates
  | .term first :: .op _ :: rest => first.Alternates ∧ Expression.Alternates rest
  | _ => False

def Call.Alternates : Call → Prop
  | .mk _ _ arguments => Call.ArgumentsAlternate arguments

def Call.ArgumentsAlternate : List (List Element) → Prop
  | [] => True
  | first :: rest => Expression.Alternates first ∧ Call.ArgumentsAlternate rest

end

namespace Statement

mutual

def Alternates : Statement → Prop
  | .let _ index value =>
      (∀ inside ∈ index, Expression.Alternates inside) ∧ Expression.Alternates value
  | .if condition thenBranch elseBranch =>
      Expression.Alternates condition ∧ AllAlternate thenBranch ∧ AllAlternate elseBranch
  | .while condition body => Expression.Alternates condition ∧ AllAlternate body
  | .do call => call.Alternates
  | .return value => ∀ given ∈ value, Expression.Alternates given

def AllAlternate : List Statement → Prop
  | [] => True
  | first :: rest => first.Alternates ∧ AllAlternate rest

end

end Statement

/-- Every expression in the class alternates. -/
def Class.Alternates (cls : Class) : Prop :=
  ∀ subroutine ∈ cls.subroutines, Statement.AllAlternate subroutine.body

theorem Expression.exists_term_of_alternates {elements : List Element}
    (alternates : Expression.Alternates elements) :
    ∃ first rest, elements = .term first :: rest := by
  match elements with
  | [] => simp [Expression.Alternates] at alternates
  | .op _ :: _ => simp [Expression.Alternates] at alternates
  | .term first :: rest => exact ⟨first, rest, rfl⟩

/-! What tokens spell alternates. -/

mutual

theorem Term.alternates_of_spelled : (term : Term) → {tokens : List Token} →
    Term.Spelled tokens term → term.Alternates
  | _, _, .int _ => by simp [Term.Alternates]
  | _, _, .string _ => by simp [Term.Alternates]
  | _, _, .constant _ => by simp [Term.Alternates]
  | _, _, .var _ => by simp [Term.Alternates]
  | .item _ index, _, .item _ spelled => by
      rw [Term.Alternates]
      exact Expression.alternates_of_spelled index spelled
  | .paren inner, _, .paren spelled => by
      rw [Term.Alternates]
      exact Expression.alternates_of_spelled inner spelled
  | .unary _ operand, _, .unary _ spelled => by
      rw [Term.Alternates]
      exact operand.alternates_of_spelled spelled
  | .call call, _, .call spelled => by
      rw [Term.Alternates]
      exact call.alternates_of_spelled spelled

theorem Expression.alternates_of_spelled : (elements : List Element) → {tokens : List Token} →
    Expression.Spelled tokens elements → Expression.Alternates elements
  | [.term last], _, .term spelled => by
      rw [Expression.Alternates]
      exact last.alternates_of_spelled spelled
  | .term first :: .op _ :: rest, _, .operation _ spelledFirst spelledRest => by
      rw [Expression.Alternates]
      exact ⟨first.alternates_of_spelled spelledFirst,
        Expression.alternates_of_spelled rest spelledRest⟩

theorem Call.alternates_of_spelled : (call : Call) → {tokens : List Token} →
    Call.Spelled tokens call → call.Alternates
  | .mk none _ arguments, _, .own _ listed => by
      rw [Call.Alternates]
      cases listed with
      | none => simp [Call.ArgumentsAlternate]
      | some separated => exact Call.arguments_alternate arguments separated
  | .mk (some _) _ arguments, _, .on _ _ listed => by
      rw [Call.Alternates]
      cases listed with
      | none => simp [Call.ArgumentsAlternate]
      | some separated => exact Call.arguments_alternate arguments separated

theorem Call.arguments_alternate : (arguments : List (List Element)) → {tokens : List Token} →
    Separated Expression.Spelled tokens arguments → Call.ArgumentsAlternate arguments
  | [only], _, .one spelled => by
      simpa [Call.ArgumentsAlternate] using Expression.alternates_of_spelled only spelled
  | first :: rest, _, .more spelledFirst separated => by
      rw [Call.ArgumentsAlternate]
      exact ⟨Expression.alternates_of_spelled first spelledFirst,
        Call.arguments_alternate rest separated⟩

end

namespace Statement

mutual

theorem alternates_of_spelled : (statement : Statement) → {tokens : List Token} →
    Spelled tokens statement → statement.Alternates
  | .let _ none value, _, .let _ spelled => by
      rw [Alternates]
      exact ⟨by simp, Expression.alternates_of_spelled value spelled⟩
  | .let _ (some index) value, _, .letItem _ spelledIndex spelledValue => by
      rw [Alternates]
      exact ⟨by simpa using Expression.alternates_of_spelled index spelledIndex,
        Expression.alternates_of_spelled value spelledValue⟩
  | .if condition thenBranch [], _, .if spelledTest spelledThen => by
      rw [Alternates]
      exact ⟨Expression.alternates_of_spelled condition spelledTest,
        allAlternate_of_spelled thenBranch spelledThen, by simp [AllAlternate]⟩
  | .if condition thenBranch elseBranch, _, .ifElse spelledTest spelledThen spelledElse => by
      rw [Alternates]
      exact ⟨Expression.alternates_of_spelled condition spelledTest,
        allAlternate_of_spelled thenBranch spelledThen,
        allAlternate_of_spelled elseBranch spelledElse⟩
  | .while condition body, _, .while spelledTest spelledBody => by
      rw [Alternates]
      exact ⟨Expression.alternates_of_spelled condition spelledTest,
        allAlternate_of_spelled body spelledBody⟩
  | .do call, _, .do spelled => by
      rw [Alternates]
      exact call.alternates_of_spelled spelled
  | .return none, _, .return => by simp [Alternates]
  | .return (some value), _, .returnValue spelled => by
      rw [Alternates]
      simpa using Expression.alternates_of_spelled value spelled

theorem allAlternate_of_spelled : (statements : List Statement) → {tokens : List Token} →
    Sequence Spelled tokens statements → AllAlternate statements
  | [], _, _ => by simp [AllAlternate]
  | first :: rest, _, .cons spelledFirst sequence => by
      rw [AllAlternate]
      exact ⟨first.alternates_of_spelled spelledFirst, allAlternate_of_spelled rest sequence⟩

end

end Statement

theorem Sequence.exists_of_mem {α : Type} {item : List Token → α → Prop} {tokens : List Token}
    {values : List α} (sequence : Sequence item tokens values) {value : α}
    (membership : value ∈ values) : ∃ part, item part value := by
  induction sequence with
  | nil => simp at membership
  | cons first _ inductionHypothesis =>
      rcases List.mem_cons.mp membership with rfl | later
      · exact ⟨_, first⟩
      · exact inductionHypothesis later

theorem Class.alternates_of_spelled {tokens : List Token} {cls : Class}
    (spelled : Class.Spelled tokens cls) : cls.Alternates := by
  obtain ⟨name, -, subroutines⟩ := spelled
  intro subroutine membership
  obtain ⟨part, spelledSubroutine⟩ := subroutines.exists_of_mem membership
  obtain ⟨kind, returnType, name, -, -, body⟩ := spelledSubroutine
  exact Statement.allAlternate_of_spelled _ body

/-! Outcomes other than certain errors. -/

section

variable {ε α β : Type} {bad : ε → Prop}

/-- The outcome is no bad error. -/
def Avoids (bad : ε → Prop) (outcome : Except ε α) : Prop :=
  ∀ error, outcome = .error error → ¬ bad error

theorem avoids_ok (value : α) : Avoids bad (.ok value) := by
  intro error impossible
  cases impossible

theorem avoids_error {error : ε} (harmless : ¬ bad error) :
    Avoids bad (.error error : Except ε α) := by
  rintro other ⟨⟩
  exact harmless

theorem Avoids.bind {first : Except ε α} {next : α → Except ε β} (here : Avoids bad first)
    (later : ∀ value, Avoids bad (next value)) : Avoids bad (first >>= next) := by
  intro error failed
  rcases bind_eq_error_iff.mp failed with failedHere | ⟨value, -, failedLater⟩
  · exact here error failedHere
  · exact later value error failedLater

theorem Avoids.bind_ok {first : Except ε α} {next : α → β} (here : Avoids bad first) :
    Avoids bad (first >>= fun value => .ok (next value)) :=
  here.bind fun value => avoids_ok (next value)

theorem avoids_mapM {step : α → Except ε β} {values : List α}
    (each : ∀ value ∈ values, Avoids bad (step value)) : Avoids bad (values.mapM step) := by
  intro error failed
  obtain ⟨before, value, after, -, rfl, -, failedThere⟩ := mapM_eq_error_iff.mp failed
  exact each value (by simp) error failedThere

theorem avoids_foldlM {step : β → α → Except ε β}
    (each : ∀ state value, Avoids bad (step state value)) (values : List α) (state : β) :
    Avoids bad (values.foldlM step state) := by
  induction values generalizing state with
  | nil => exact avoids_ok state
  | cons value rest inductionHypothesis =>
      rw [List.foldlM_cons]
      exact (each state value).bind fun next => inductionHypothesis next

end

def CompileError.IsSyntax (error : CompileError) : Prop :=
  ∃ expected found, error = .unexpected expected found

def BuildError.IsSyntax (error : BuildError) : Prop :=
  ∃ name reason, error = .unit name reason ∧ reason.IsSyntax

/-! Generating code. -/

open CompileError (IsSyntax)

namespace Frame

variable (frame : Frame)

theorem resolve_avoids (name : String) : Avoids IsSyntax (frame.resolve name) := by
  rw [resolve]
  cases frame.scope.get? name with
  | none => exact avoids_error (by simp [IsSyntax])
  | some binding => exact avoids_ok _

theorem checkArity_avoids (className name : String) (supplied : Nat) :
    Avoids IsSyntax (frame.checkArity className name supplied) := by
  rw [checkArity]
  split
  · exact avoids_ok _
  · split
    · exact avoids_ok _
    · exact avoids_error (by simp [IsSyntax])

theorem target_avoids (receiver : Option String) (name : String) :
    Avoids IsSyntax (frame.target receiver name) := by
  unfold target
  split
  · exact avoids_ok _
  · split
    · exact avoids_ok _
    · split
      · exact avoids_error (by simp [IsSyntax])
      · exact avoids_ok _

end Frame

section

variable (frame : Frame)

mutual

theorem Term.code_avoids : (term : Term) → term.Alternates →
    Avoids IsSyntax (term.code frame)
  | .int _, _ => avoids_ok _
  | .string _, _ => avoids_ok _
  | .constant _, _ => avoids_ok _
  | .var name, _ => by
      rw [Term.code]
      exact (frame.resolve_avoids name).bind fun _ => avoids_ok _
  | .item array index, alternates => by
      rw [Term.Alternates] at alternates
      rw [Term.code]
      refine (frame.resolve_avoids array).bind fun _ => ?_
      exact (Expression.code_avoids index alternates).bind_ok
  | .paren inner, alternates => by
      rw [Term.Alternates] at alternates
      rw [Term.code]
      exact Expression.code_avoids inner alternates
  | .unary _ operand, alternates => by
      rw [Term.Alternates] at alternates
      rw [Term.code]
      exact (operand.code_avoids alternates).bind_ok
  | .call call, alternates => by
      rw [Term.Alternates] at alternates
      rw [Term.code]
      exact call.code_avoids alternates

theorem Expression.code_avoids : (elements : List Element) →
    Expression.Alternates elements → Avoids IsSyntax (Expression.code frame elements)
  | [.term last], alternates => by
      rw [Expression.Alternates] at alternates
      rw [Expression.code_singleton]
      exact last.code_avoids alternates
  | .term first :: .op _ :: rest, alternates => by
      rw [Expression.Alternates] at alternates
      have firstCode := first.code_avoids alternates.1
      have restCode := Expression.code_avoids rest alternates.2
      -- The operator waits for a term, and what follows it starts with one.
      obtain ⟨second, others, rfl⟩ := Expression.exists_term_of_alternates alternates.2
      rw [Expression.code_operation_term]
      exact firstCode.bind fun _ => restCode.bind_ok
  | [], alternates => by simp [Expression.Alternates] at alternates
  | .op _ :: _, alternates => by simp [Expression.Alternates] at alternates
  | .term _ :: .term _ :: _, alternates => by simp [Expression.Alternates] at alternates

theorem Call.code_avoids : (call : Call) → call.Alternates →
    Avoids IsSyntax (call.code frame)
  | .mk receiver name arguments, alternates => by
      rw [Call.Alternates] at alternates
      rw [Call.code]
      refine (frame.target_avoids receiver name).bind fun ⟨className, _⟩ => ?_
      refine (frame.checkArity_avoids className name arguments.length).bind fun _ => ?_
      exact (Call.argumentsCode_avoids arguments alternates).bind_ok

theorem Call.argumentsCode_avoids : (arguments : List (List Element)) →
    Call.ArgumentsAlternate arguments → Avoids IsSyntax (Call.argumentsCode frame arguments)
  | [], _ => avoids_ok _
  | first :: rest, alternate => by
      rw [Call.ArgumentsAlternate] at alternate
      rw [Call.argumentsCode]
      refine (Expression.code_avoids first alternate.1).bind fun _ => ?_
      exact (Call.argumentsCode_avoids rest alternate.2).bind_ok

end

namespace Statement

mutual

theorem code_avoids : (statement : Statement) → statement.Alternates →
    (labels : Labels) → Avoids IsSyntax (statement.code frame labels)
  | .let name none value, alternates, labels => by
      rw [Alternates] at alternates
      rw [Statement.code]
      refine (frame.resolve_avoids name).bind fun _ => ?_
      exact (Expression.code_avoids frame value alternates.2).bind_ok
  | .let name (some index) value, alternates, labels => by
      rw [Alternates] at alternates
      rw [Statement.code]
      refine (frame.resolve_avoids name).bind fun _ => ?_
      refine (Expression.code_avoids frame index (alternates.1 index rfl)).bind fun _ => ?_
      exact (Expression.code_avoids frame value alternates.2).bind_ok
  | .if condition thenBranch elseBranch, alternates, labels => by
      rw [Alternates] at alternates
      rw [Statement.code]
      refine (Expression.code_avoids frame condition alternates.1).bind fun _ => ?_
      refine (codeAll_avoids thenBranch alternates.2.1 _).bind fun ⟨_, between⟩ => ?_
      exact (codeAll_avoids elseBranch alternates.2.2 between).bind_ok
  | .while condition body, alternates, labels => by
      rw [Alternates] at alternates
      rw [Statement.code]
      refine (Expression.code_avoids frame condition alternates.1).bind fun _ => ?_
      exact (codeAll_avoids body alternates.2 _).bind_ok
  | .do call, alternates, labels => by
      rw [Alternates] at alternates
      rw [Statement.code]
      exact (Call.code_avoids frame call alternates).bind_ok
  | .return none, _, labels => avoids_ok _
  | .return (some value), alternates, labels => by
      rw [Alternates] at alternates
      rw [Statement.code]
      exact (Expression.code_avoids frame value (alternates value rfl)).bind_ok

theorem codeAll_avoids : (statements : List Statement) → AllAlternate statements →
    (labels : Labels) → Avoids IsSyntax (codeAll frame statements labels)
  | [], _, labels => by
      rw [codeAll]
      exact avoids_ok _
  | first :: rest, alternate, labels => by
      rw [AllAlternate] at alternate
      rw [codeAll]
      refine (code_avoids first alternate.1 labels).bind fun ⟨_, between⟩ => ?_
      exact (codeAll_avoids rest alternate.2 between).bind_ok

end

end Statement

end

theorem Avoids.onError {ε α : Type} {bad : ε → Prop} {result : Except ε α}
    (avoids : Avoids bad result) : Avoids (Halt.Reports bad) (Halt.onError result) := by
  intro halt failed
  obtain ⟨error, failedThere, rfl⟩ := Halt.onError_eq_error_iff.mp failed
  exact avoids error failedThere

theorem SymbolTable.defineAll_avoids (table : SymbolTable) (declarations : List Declaration) :
    Avoids (Halt.Reports IsSyntax) (table.defineAll declarations).result := by
  rw [defineAll, Update.result_each]
  apply avoids_foldlM
  intro table declaration
  rw [define]
  split
  · exact avoids_error (by simp [Halt.Reports, IsSyntax])
  · split
    · exact avoids_ok _
    · exact avoids_error (by simp [Halt.Reports])

/-- A class whose expressions alternate may have no code, but not because of an expression. -/
theorem Class.code_avoids {cls : Class} (alternates : cls.Alternates)
    (signatures : SignatureTable) :
    Avoids (Halt.Reports IsSyntax) (cls.code signatures) := by
  rw [Class.code]
  refine (SymbolTable.defineAll_avoids _ _).bind fun members => ?_
  refine Avoids.bind_ok (avoids_mapM fun subroutine membership => ?_)
  rw [Subroutine.code]
  refine (SymbolTable.defineAll_avoids _ _).bind fun own => ?_
  exact (Statement.codeAll_avoids _ subroutine.body (alternates subroutine membership)
    {}).onError.bind_ok

/-! Building. -/

namespace Build

theorem register_avoids (known : SignatureTable) (cls : Class) :
    Avoids IsSyntax (register known cls) := by
  rw [register, SignatureTable.register]
  rcases known.insertAll_cases cls.signatures with ⟨-, next, inserted, -⟩ |
    ⟨_, _, _, -, -, -, next, stopped, -⟩
  · rw [inserted]
    exact avoids_ok next
  · rw [stopped]
    exact avoids_error (by simp [IsSyntax])

theorem inUnit_avoids {α : Type} {result : Except (Halt CompileError) α}
    (avoids : Avoids (Halt.Reports IsSyntax) result) (name : String) :
    Avoids (Halt.Reports BuildError.IsSyntax) (inUnit name result) := by
  intro halt failed
  obtain ⟨reason, failedThere, rfl⟩ := inUnit_eq_error_iff.mp failed
  cases reason with
  | overflow => exact id
  | reported reason =>
      rintro ⟨_, _, ⟨⟩, isSyntax⟩
      exact avoids _ failedThere isSyntax

theorem signatures_avoids (library : Bool) (named : List (String × Class)) :
    Avoids (Halt.Reports BuildError.IsSyntax) (signatures library named) := by
  rw [signatures]
  refine Avoids.bind_ok (avoids_foldlM ?_ named _)
  intro known unit
  exact inUnit_avoids (register_avoids known unit.2).onError unit.1

theorem classes_eq_error {units : List SourceUnit} {halt : Halt BuildError}
    (failed : classes units = .error halt) :
    ∃ source ∈ units, ∃ reason, halt = .reported (.unit source.name reason) ∧
      Class.parse source.text = .error reason := by
  obtain ⟨before, source, after, -, rfl, -, failedThere⟩ := mapM_eq_error_iff.mp failed
  rcases bind_eq_error_iff.mp failedThere with failedReading | ⟨cls, -, impossible⟩
  · obtain ⟨_, failedParsing, rfl⟩ := inUnit_eq_error_iff.mp failedReading
    obtain ⟨reason, parsed, rfl⟩ := Halt.onError_eq_error_iff.mp failedParsing
    exact ⟨source, by simp, reason, rfl, parsed⟩
  · cases impossible

theorem alternates_of_classes {units : List SourceUnit} {named : List (String × Class)}
    (read : classes units = .ok named) : ∀ unit ∈ named, unit.2.Alternates := by
  intro unit membership
  obtain ⟨place, found⟩ := List.mem_iff_getElem?.mp membership
  obtain ⟨source, -, -, parsed⟩ := forall₂_getElem? (classes_eq_ok_iff.mp read).flip found
  exact Class.alternates_of_spelled (Class.parse_eq_ok_iff.mp parsed)

/-- Once all units are read, no syntax error is left to be found. -/
theorem compile_avoids {units : List SourceUnit} {named : List (String × Class)}
    (read : classes units = .ok named) (library : Bool) :
    Avoids (Halt.Reports BuildError.IsSyntax) (compile library units) := by
  rw [compile, read, ok_bind]
  refine (signatures_avoids library named).bind fun known => avoids_mapM ?_
  intro unit membership
  have alternates := alternates_of_classes read unit membership
  exact (inUnit_avoids (Class.code_avoids alternates known) unit.1).bind_ok

theorem compileSource_avoids {source : String} {cls : Class}
    (parsed : Class.parse source = .ok cls) :
    Avoids (Halt.Reports IsSyntax) (compileSource source) := by
  have alternates := Class.alternates_of_spelled (Class.parse_eq_ok_iff.mp parsed)
  rw [compileSource, Halt.onError_eq_ok_iff.mpr parsed, ok_bind]
  exact (register_avoids {} cls).onError.bind fun known =>
    Class.code_avoids alternates known.addLibrary

/-- No class that was read gives a syntax error when code is generated for it, whatever signatures
are known. So a unit on its own has a syntax error exactly if reading it has, and a syntax error of
a build is that of reading the unit it names. -/
theorem syntax_errors_come_from_reading :
    (∀ (tokens : List Token) (cls : Class), Class.ofTokens tokens = .ok cls →
      ∀ (signatures : SignatureTable) (expected found : String),
        cls.code signatures ≠ .error (.reported (.unexpected expected found))) ∧
    (∀ source expected found : String,
      compileSource source = .error (.reported (.unexpected expected found)) ↔
        Class.parse source = .error (.unexpected expected found)) ∧
    ∀ (library : Bool) (units : List SourceUnit) (name expected found : String),
      compile library units = .error (.reported (.unit name (.unexpected expected found))) →
        ∃ source ∈ units, source.name = name ∧
          Class.parse source.text = .error (.unexpected expected found) := by
  refine ⟨?_, ?_, ?_⟩
  · intro tokens cls accepted signatures expected found failed
    have alternates := Class.alternates_of_spelled (Class.accepted_iff_spelled.mp accepted)
    exact Class.code_avoids alternates signatures _ failed ⟨expected, found, rfl⟩
  · intro source expected found
    cases parsed : Class.parse source with
    | error reason =>
        have stopped : compileSource source = .error (.reported reason) := by
          rw [compileSource, Halt.onError_eq_error_iff.mpr ⟨reason, parsed, rfl⟩, error_bind]
        rw [stopped, Except.error.injEq, Except.error.injEq, Halt.reported.injEq]
    | ok cls =>
        have fine : compileSource source ≠ .error (.reported (.unexpected expected found)) :=
          fun failed => compileSource_avoids parsed _ failed ⟨expected, found, rfl⟩
        simp [fine]
  · intro library units name expected found failed
    cases read : classes units with
    | error reason =>
        rw [compile, read, error_bind, Except.error.injEq] at failed
        obtain ⟨source, membership, _, sameError, parsed⟩ := classes_eq_error read
        rw [failed] at sameError
        cases sameError
        exact ⟨source, membership, rfl, parsed⟩
    | ok named =>
        exact absurd ⟨name, _, rfl, expected, found, rfl⟩ (compile_avoids read library _ failed)

/-- An operator without its second operand. -/
def fuse : SourceUnit where
  name := "Fuse"
  text := "class Fuse \x7b function int limit(int load) \x7b return (load *); \x7d \x7d"

/-- A lamp that no text spells, with the same mistake. -/
def dimLamp : Class where
  name := "Lamp"
  members := lampClass.members
  subroutines := [{ lampUsed with body := [.return (some [.term (.var "power"), .op .multiply])] }]

theorem parse_fuse : Class.parse fuse.text = .error (.unexpected "a term" "`)`") := by
  decide +kernel

theorem compile_lamp_fuse :
    compile true [lamp, fuse] =
      .error (.reported (.unit "Fuse" (.unexpected "a term" "`)`"))) := by
  have failed : classes [lamp, fuse] =
      .error (.reported (.unit "Fuse" (.unexpected "a term" "`)`"))) := by
    rw [classes, List.mapM_cons, List.mapM_cons, parse_lamp, parse_fuse]
    rfl
  rw [compile, failed, error_bind]

/-- The fuse is refused when it is read. The dim lamp gets as far as its code, but the lamp that was
read is not like it. -/
theorem lamp_fuse_refused_in_reading :
    Class.ofTokens (Token.tokenize lamp.text) = .ok lampClass ∧
    dimLamp.code {} = .error (.reported (.unexpected "alternating terms and operators"
      "malformed expression in `Lamp.used`")) ∧
    (∀ signatures expected found,
      lampClass.code signatures ≠ .error (.reported (.unexpected expected found))) ∧
    compileSource fuse.text = .error (.reported (.unexpected "a term" "`)`")) ∧
    compile true [lamp, fuse] =
      .error (.reported (.unit "Fuse" (.unexpected "a term" "`)`"))) ∧
    ∃ source ∈ [lamp, fuse], source.name = "Fuse" ∧
      Class.parse source.text = .error (.unexpected "a term" "`)`") := by
  have accepted : Class.ofTokens (Token.tokenize lamp.text) = .ok lampClass :=
    Class.accepted_iff_spelled.mpr (Class.parse_eq_ok_iff.mp parse_lamp)
  obtain ⟨generating, alone, together⟩ := syntax_errors_come_from_reading
  exact ⟨accepted, rfl, generating _ _ accepted, (alone _ _ _).mpr parse_fuse, compile_lamp_fuse,
    together true _ _ _ _ compile_lamp_fuse⟩

end Build

end ClassLang
