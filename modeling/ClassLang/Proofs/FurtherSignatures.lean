import ClassLang.Proofs.SeparateCompilation

/-!
What becomes of a class when more is known of the other classes.

Every signature can be held against a call, but only one of the class itself has a say in the code
of the call. So what is learnt of other classes changes no code: at most it shows that a call
supplies the wrong number of arguments.
-/

namespace ClassLang

namespace SignatureTable

/-- The larger table keeps all entries and has no new one under a name of the class. -/
structure GrowsOutside (className : String) (smaller larger : SignatureTable) : Prop where
  kept : ∀ (name : String) (signature : Signature),
    smaller.entries[name]? = some signature → larger.entries[name]? = some signature
  outside : ∀ name ∈ larger.entries, name ∉ smaller.entries →
    ∀ subroutine, name ≠ qualifiedName className subroutine

/-- The error holds a call against a signature that only the larger table has. -/
def Exposes (smaller larger : SignatureTable) (error : CompileError) : Prop :=
  ∃ callee signature supplied, callee ∉ smaller.entries ∧
    larger.entries[callee]? = some signature ∧
    error = .arity callee signature.parameters supplied

variable {className : String} {smaller larger : SignatureTable}

theorem GrowsOutside.getElem?_of_mem (grows : GrowsOutside className smaller larger) {name : String}
    (known : name ∈ smaller.entries) : larger.entries[name]? = smaller.entries[name]? := by
  rw [Std.ExtTreeMap.getElem?_eq_some_getElem known]
  apply grows.kept
  exact Std.ExtTreeMap.getElem?_eq_some_getElem known

/-- Of its own subroutines a class learns nothing. -/
theorem GrowsOutside.get?_own (grows : GrowsOutside className smaller larger)
    (subroutine : String) :
    larger.get? className subroutine = smaller.get? className subroutine := by
  by_cases known : qualifiedName className subroutine ∈ smaller.entries
  · exact grows.getElem?_of_mem known
  · have absent : qualifiedName className subroutine ∉ larger.entries := by
      intro added
      exact grows.outside _ added known subroutine rfl
    rw [get?, get?, Std.ExtTreeMap.getElem?_eq_none absent, Std.ExtTreeMap.getElem?_eq_none known]

end SignatureTable

section

variable {ε α β : Type} {allowed : ε → Prop}

/-- The second outcome is the first one, unless it is an error that is allowed. -/
def Overrides (allowed : ε → Prop) (first second : Except ε α) : Prop :=
  second = first ∨ ∃ error, allowed error ∧ second = .error error

theorem overrides_refl (outcome : Except ε α) : Overrides allowed outcome outcome :=
  .inl rfl

theorem Overrides.bind {first second : Except ε α}
    {next otherNext : α → Except ε β} (overrides : Overrides allowed first second)
    (later : ∀ value, Overrides allowed (next value) (otherNext value)) :
    Overrides allowed (first >>= next) (second >>= otherNext) := by
  rcases overrides with same | ⟨error, isAllowed, failed⟩
  · rw [same]
    cases first with
    | error error => exact overrides_refl _
    | ok value => exact later value
  · rw [failed]
    exact .inr ⟨error, isAllowed, rfl⟩

/-- What is made of a result makes no difference. -/
theorem Overrides.bind_same {first second : Except ε α}
    (overrides : Overrides allowed first second) (next : α → Except ε β) :
    Overrides allowed (first >>= next) (second >>= next) :=
  overrides.bind fun value => overrides_refl (next value)

theorem overrides_mapM {step other : α → Except ε β} (values : List α)
    (each : ∀ value ∈ values, Overrides allowed (step value) (other value)) :
    Overrides allowed (values.mapM step) (values.mapM other) := by
  induction values with
  | nil => exact overrides_refl _
  | cons first rest inductionHypothesis =>
      rw [List.forall_mem_cons] at each
      rw [List.mapM_cons, List.mapM_cons]
      exact each.1.bind fun value => (inductionHypothesis each.2).bind_same _

theorem Overrides.ok_of_ok {first second : Except ε α}
    (overrides : Overrides allowed first second) {value : α} (succeeded : second = .ok value) :
    first = .ok value := by
  rcases overrides with same | ⟨error, -, failed⟩
  · rw [← same, succeeded]
  · rw [failed] at succeeded
    contradiction

theorem Overrides.onError {first second : Except ε α} (overrides : Overrides allowed first second) :
    Overrides (Halt.Reports allowed) (Halt.onError first) (Halt.onError second) := by
  rcases overrides with same | ⟨error, isAllowed, failed⟩
  · exact .inl (congrArg Halt.onError same)
  · exact .inr ⟨.reported error, isAllowed, congrArg Halt.onError failed⟩

end

section

variable {frame : Frame} {other : SignatureTable}

namespace Frame

theorem target_of_grows (grows : frame.signatures.GrowsOutside frame.className other)
    (receiver : Option String) (name : String) :
    (frame.withSignatures other).target receiver name = frame.target receiver name := by
  cases receiver with
  | some receiver => rfl
  | none =>
      have sameKind :
          (frame.withSignatures other).callsStatic name = frame.callsStatic name := by
        unfold callsStatic
        rw [show (frame.withSignatures other).signatures.get?
          (frame.withSignatures other).className name = _ from grows.get?_own name]
      simp only [target, sameKind]
      rfl

/-- The check can only fail for a new reason if the callee was not known before. -/
theorem checkArity_of_grows (grows : frame.signatures.GrowsOutside frame.className other)
    (className name : String) (supplied : Nat) :
    Overrides (frame.signatures.Exposes other) (frame.checkArity className name supplied)
      ((frame.withSignatures other).checkArity className name supplied) := by
  by_cases known : qualifiedName className name ∈ frame.signatures.entries
  · left
    unfold checkArity
    rw [show (frame.withSignatures other).signatures.get? className name =
      frame.signatures.get? className name from grows.getElem?_of_mem known]
  · have unchecked : frame.checkArity className name supplied = .ok () := by
      rw [checkArity, SignatureTable.get?, Std.ExtTreeMap.getElem?_eq_none known]
    rw [unchecked, checkArity]
    cases found : (frame.withSignatures other).signatures.get? className name with
    | none => exact overrides_refl _
    | some signature =>
        by_cases agrees : signature.parameters = supplied
        · left
          exact if_pos agrees
        · right
          exact ⟨_, ⟨_, signature, supplied, known, found, rfl⟩, if_neg agrees⟩

end Frame

mutual

theorem Term.code_of_grows (grows : frame.signatures.GrowsOutside frame.className other) :
    (term : Term) → Overrides (frame.signatures.Exposes other) (term.code frame)
      (term.code (frame.withSignatures other))
  | .int _ => overrides_refl _
  | .string _ => overrides_refl _
  | .constant _ => overrides_refl _
  | .var _ => overrides_refl _
  | .item array index => by
      rw [Term.code, Term.code]
      refine Overrides.bind (overrides_refl (frame.resolve array)) fun _ => ?_
      exact (Expression.code_of_grows grows index).bind_same _
  | .paren inner => by
      rw [Term.code, Term.code]
      exact Expression.code_of_grows grows inner
  | .unary _ operand => by
      rw [Term.code, Term.code]
      exact (Term.code_of_grows grows operand).bind_same _
  | .call call => by
      rw [Term.code, Term.code]
      exact Call.code_of_grows grows call

theorem Expression.code_of_grows (grows : frame.signatures.GrowsOutside frame.className other) :
    (elements : List Element) → Overrides (frame.signatures.Exposes other)
      (Expression.code frame elements) (Expression.code (frame.withSignatures other) elements)
  | [] => overrides_refl _
  | .op _ :: _ => overrides_refl _
  | .term first :: rest => by
      rw [Expression.code, Expression.code]
      refine (Term.code_of_grows grows first).bind fun _ => ?_
      exact (Expression.operationsCode_of_grows grows rest []).bind_same _

theorem Expression.operationsCode_of_grows
    (grows : frame.signatures.GrowsOutside frame.className other) :
    (elements : List Element) → (pending : List BinaryOp) →
    Overrides (frame.signatures.Exposes other)
      (Expression.operationsCode frame elements pending)
      (Expression.operationsCode (frame.withSignatures other) elements pending)
  | [], _ => overrides_refl _
  | .op op :: .term operand :: rest, pending => by
      rw [Expression.operationsCode, Expression.operationsCode]
      refine (Term.code_of_grows grows operand).bind fun _ => ?_
      exact (Expression.operationsCode_of_grows grows rest (op :: pending)).bind_same _
  | [.op _], _ => by
      simpa [Expression.operationsCode] using overrides_refl _
  | .op _ :: .op _ :: _, _ => by
      simpa [Expression.operationsCode] using overrides_refl _
  | .term _ :: _, _ => by
      simpa [Expression.operationsCode] using overrides_refl _

theorem Call.code_of_grows (grows : frame.signatures.GrowsOutside frame.className other) :
    (call : Call) → Overrides (frame.signatures.Exposes other) (call.code frame)
      (call.code (frame.withSignatures other))
  | .mk receiver name arguments => by
      rw [Call.code, Call.code, Frame.target_of_grows grows]
      refine Overrides.bind (overrides_refl _) fun reached => ?_
      obtain ⟨className, receiverCode⟩ := reached
      refine (Frame.checkArity_of_grows grows className name arguments.length).bind fun _ => ?_
      exact (Call.argumentsCode_of_grows grows arguments).bind_same _

theorem Call.argumentsCode_of_grows
    (grows : frame.signatures.GrowsOutside frame.className other) :
    (arguments : List (List Element)) → Overrides (frame.signatures.Exposes other)
      (Call.argumentsCode frame arguments)
      (Call.argumentsCode (frame.withSignatures other) arguments)
  | [] => overrides_refl _
  | first :: rest => by
      rw [Call.argumentsCode, Call.argumentsCode]
      refine (Expression.code_of_grows grows first).bind fun _ => ?_
      exact (Call.argumentsCode_of_grows grows rest).bind_same _

end

namespace Statement

mutual

theorem code_of_grows (grows : frame.signatures.GrowsOutside frame.className other) :
    (statement : Statement) → (labels : Labels) → Overrides (frame.signatures.Exposes other)
      (statement.code frame labels) (statement.code (frame.withSignatures other) labels)
  | .let name none value, _ => by
      rw [Statement.code, Statement.code]
      refine Overrides.bind (overrides_refl (frame.resolve name)) fun _ => ?_
      exact (Expression.code_of_grows grows value).bind_same _
  | .let name (some index) value, _ => by
      rw [Statement.code, Statement.code]
      refine Overrides.bind (overrides_refl (frame.resolve name)) fun _ => ?_
      refine (Expression.code_of_grows grows index).bind fun _ => ?_
      exact (Expression.code_of_grows grows value).bind_same _
  | .if condition thenBranch elseBranch, labels => by
      rw [Statement.code, Statement.code]
      refine (Expression.code_of_grows grows condition).bind fun _ => ?_
      refine (codeAll_of_grows grows thenBranch _).bind fun ⟨_, between⟩ => ?_
      exact (codeAll_of_grows grows elseBranch between).bind_same _
  | .while condition body, labels => by
      rw [Statement.code, Statement.code]
      refine (Expression.code_of_grows grows condition).bind fun _ => ?_
      exact (codeAll_of_grows grows body _).bind_same _
  | .do call, _ => by
      rw [Statement.code, Statement.code]
      exact (Call.code_of_grows grows call).bind_same _
  | .return none, _ => overrides_refl _
  | .return (some value), _ => by
      rw [Statement.code, Statement.code]
      exact (Expression.code_of_grows grows value).bind_same _

theorem codeAll_of_grows (grows : frame.signatures.GrowsOutside frame.className other) :
    (statements : List Statement) → (labels : Labels) →
    Overrides (frame.signatures.Exposes other) (codeAll frame statements labels)
      (codeAll (frame.withSignatures other) statements labels)
  | [], _ => overrides_refl _
  | first :: rest, labels => by
      rw [codeAll, codeAll]
      refine (code_of_grows grows first labels).bind fun ⟨_, between⟩ => ?_
      exact (codeAll_of_grows grows rest between).bind_same _

end

end Statement

end

theorem Subroutine.code_of_grows {className : String} {smaller larger : SignatureTable}
    (grows : smaller.GrowsOutside className larger) (members : SymbolTable)
    (subroutine : Subroutine) :
    Overrides (Halt.Reports (smaller.Exposes larger)) (subroutine.code className members smaller)
      (subroutine.code className members larger) := by
  rw [Subroutine.code, Subroutine.code]
  refine Overrides.bind (overrides_refl _) fun own => ?_
  let frame := subroutine.frame className smaller members own
  have frameGrows : frame.signatures.GrowsOutside frame.className larger := grows
  exact (Statement.codeAll_of_grows frameGrows subroutine.body {}).onError.bind_same _

theorem Class.code_of_grows {cls : Class} {smaller larger : SignatureTable}
    (grows : smaller.GrowsOutside cls.name larger) :
    Overrides (Halt.Reports (smaller.Exposes larger)) (cls.code smaller) (cls.code larger) := by
  rw [Class.code, Class.code]
  refine Overrides.bind (overrides_refl _) fun members => ?_
  have blocks := overrides_mapM cls.subroutines fun subroutine _ =>
    Subroutine.code_of_grows grows members subroutine
  exact blocks.bind_same _

/-- Further signatures of other classes never change the code of a class. If they stop it from
having any, a call supplies the wrong number of arguments for a subroutine that was not known
before. -/
theorem Class.further_signatures_keep_code (cls : Class) (smaller larger : SignatureTable)
    (grows : smaller.GrowsOutside cls.name larger) :
    (∀ code, cls.code larger = .ok code → cls.code smaller = .ok code) ∧
    ∀ code, cls.code smaller = .ok code →
      cls.code larger = .ok code ∨
        ∃ callee signature supplied,
          cls.code larger = .error (.reported (.arity callee signature.parameters supplied)) ∧
          larger.entries[callee]? = some signature ∧ callee ∉ smaller.entries := by
  have overrides := Class.code_of_grows grows
  constructor
  · intro code generated
    exact overrides.ok_of_ok generated
  · intro code generated
    rcases overrides with same | ⟨halt, exposes, failed⟩
    · left
      rw [same, generated]
    · right
      cases halt with
      | overflow => exact exposes.elim
      | reported error =>
          obtain ⟨callee, signature, supplied, fresh, found, rfl⟩ := exposes
          exact ⟨callee, signature, supplied, failed, found, fresh⟩

namespace Build

/-- A table that knows how many parameters the lamp's method has, and nothing else. -/
def lampSignature (parameters : Nat) : SignatureTable :=
  SignatureTable.insertDefault {} "Lamp.used" ⟨.void, .method, parameters⟩

theorem lampSignature_growsOutside_room (parameters : Nat) :
    SignatureTable.GrowsOutside roomClass.name {} (lampSignature parameters) where
  kept name signature found := by simp at found
  outside name added _ subroutine equal := by
    have isLamp : "Lamp.used" = name := by
      simpa [lampSignature, SignatureTable.insertDefault] using added
    have firstLetter := congrArg (·.toList.head?) (isLamp.trans equal)
    simp [qualifiedName, roomClass] at firstLetter

/-- The signature of the lamp leaves the code of the room alone if it has one parameter, and shows
that the call is wrong if it has two. -/
theorem room_code_with_lampSignature :
    SignatureTable.GrowsOutside roomClass.name {} (lampSignature 1) ∧
    SignatureTable.GrowsOutside roomClass.name {} (lampSignature 2) ∧
    roomClass.code (lampSignature 1) = .ok roomCode ∧
    roomClass.code {} = .ok roomCode ∧
    roomClass.code (lampSignature 2) = .error (.reported (.arity "Lamp.used" 2 1)) ∧
    (roomClass.code (lampSignature 2) = .ok roomCode ∨
      ∃ callee signature supplied,
        roomClass.code (lampSignature 2) =
          .error (.reported (.arity callee signature.parameters supplied)) ∧
        (lampSignature 2).entries[callee]? = some signature ∧
        callee ∉ (SignatureTable.mk ∅).entries) := by
  have oneGrows := lampSignature_growsOutside_room 1
  have twoGrows := lampSignature_growsOutside_room 2
  have alone := (Class.further_signatures_keep_code roomClass {} _ oneGrows).1 roomCode rfl
  exact ⟨oneGrows, twoGrows, rfl, alone, rfl,
    (Class.further_signatures_keep_code roomClass {} _ twoGrows).2 roomCode alone⟩

end Build

end ClassLang
