import ClassLang.Proofs.CodeShape
import ClassLang.Proofs.Declared

/-!
The calls that a class makes, read off its tree in the order of its code, and the instructions
that perform them.
-/

namespace ClassLang

open Vm

/-- How a call says which subroutine it wants. -/
inductive CallForm where
  /-- Nothing in the source is a call: an operator, a string or a new object needs the library. -/
  | implicit
  | unqualified
  | throughVariable
  | throughClass
  deriving DecidableEq, Repr

structure CallSite where
  form : CallForm
  /-- The qualified name of the subroutine. -/
  callee : String
  /-- How many arguments are written down, which leaves out the receiver. -/
  supplied : Nat
  deriving DecidableEq, Repr

/-- What the calls in a body depend on, apart from the signatures. -/
structure Surroundings where
  className : String
  type? : String → Option DataType

/-- The site of a call, unless the receiver is a variable that cannot be called. -/
def Surroundings.site? (around : Surroundings) (receiver : Option String) (name : String)
    (supplied : Nat) : Option CallSite :=
  match receiver with
  | none => some ⟨.unqualified, qualifiedName around.className name, supplied⟩
  | some receiver =>
      match around.type? receiver with
      | none => some ⟨.throughClass, qualifiedName receiver name, supplied⟩
      | some (.object className) =>
          some ⟨.throughVariable, qualifiedName className name, supplied⟩
      | some (.primitive _) => none

def BinaryOp.callSites : BinaryOp → List CallSite
  | .multiply => [⟨.implicit, Library.multiply, 2⟩]
  | .divide => [⟨.implicit, Library.divide, 2⟩]
  | _ => []

def stringCallSites (text : String) : List CallSite :=
  ⟨.implicit, Library.newString, 1⟩ ::
    text.toList.map fun _ => ⟨.implicit, Library.appendChar, 2⟩

mutual

def Term.callSites (around : Surroundings) : Term → List CallSite
  | .int _ => []
  | .string text => stringCallSites text
  | .constant _ => []
  | .var _ => []
  | .item _ index => Expression.callSites around index
  | .paren inner => Expression.callSites around inner
  | .unary _ operand => operand.callSites around
  | .call call => call.callSites around

def Expression.callSites (around : Surroundings) : List Element → List CallSite
  | .term first :: rest => first.callSites around ++ Expression.operationsCallSites around rest
  | _ => []

/-- The operators work on what stands behind them, so their calls come last. -/
def Expression.operationsCallSites (around : Surroundings) : List Element → List CallSite
  | .op op :: .term operand :: rest =>
      operand.callSites around ++ Expression.operationsCallSites around rest ++ op.callSites
  | _ => []

def Call.callSites (around : Surroundings) : Call → List CallSite
  | .mk receiver name arguments =>
      Call.argumentsCallSites around arguments ++
        (around.site? receiver name arguments.length).toList

def Call.argumentsCallSites (around : Surroundings) : List (List Element) → List CallSite
  | [] => []
  | first :: rest => Expression.callSites around first ++ Call.argumentsCallSites around rest

end

namespace Statement

mutual

def callSites (around : Surroundings) : Statement → List CallSite
  | .let _ none value => Expression.callSites around value
  | .let _ (some index) value =>
      Expression.callSites around index ++ Expression.callSites around value
  | .if condition thenBranch elseBranch =>
      Expression.callSites around condition ++ callSitesAll around thenBranch ++
        callSitesAll around elseBranch
  | .while condition body => Expression.callSites around condition ++ callSitesAll around body
  | .do call => call.callSites around
  | .return none => []
  | .return (some value) => Expression.callSites around value

def callSitesAll (around : Surroundings) : List Statement → List CallSite
  | [] => []
  | first :: rest => callSites around first ++ callSitesAll around rest

end

end Statement

def SubroutineKind.callSites : SubroutineKind → List CallSite
  | .constructor => [⟨.implicit, Library.allocate, 1⟩]
  | _ => []

def Class.surroundings (cls : Class) (subroutine : Subroutine) : Surroundings where
  className := cls.name
  type? name := (cls.locate? subroutine name).map (·.type)

def Subroutine.callSites (cls : Class) (subroutine : Subroutine) : List CallSite :=
  subroutine.kind.callSites ++
    Statement.callSitesAll (cls.surroundings subroutine) subroutine.body

def Class.callSites (cls : Class) : List CallSite :=
  cls.subroutines.flatMap (Subroutine.callSites cls)

/-! The instructions. -/

namespace CallSite

/-- How many receivers are pushed. A subroutine of the class itself that is not known counts as a
method. -/
def receivers (known : SignatureTable) (site : CallSite) : Nat :=
  match site.form with
  | .implicit => 0
  | .unqualified =>
      match known.entries[site.callee]? with
      | some signature => if signature.kind = .method then 1 else 0
      | none => 1
  | .throughVariable => 1
  | .throughClass => 0

/-- The subroutine that is called, and the number of values that it gets. -/
def emitted (known : SignatureTable) (site : CallSite) : String × Nat :=
  (site.callee, site.receivers known + site.supplied)

/-- A call that is written down must supply what a known subroutine takes. -/
def check (known : SignatureTable) (site : CallSite) : Except CompileError Unit :=
  if site.form = .implicit then .ok ()
  else
    match known.entries[site.callee]? with
    | none => .ok ()
    | some signature =>
        if signature.parameters = site.supplied then .ok ()
        else .error (.arity site.callee signature.parameters site.supplied)

end CallSite

namespace Vm

@[simp] def Instruction.call? : Instruction → Option (String × Nat)
  | .call name count => some (name, count)
  | _ => none

/-- The calls in a piece of code, with the number of values that each takes. -/
def calls (code : List Instruction) : List (String × Nat) :=
  code.filterMap Instruction.call?

@[simp] theorem calls_nil : calls [] = [] := rfl

@[simp] theorem calls_cons (instruction : Instruction) (rest : List Instruction) :
    calls (instruction :: rest) = instruction.call?.toList ++ calls rest := by
  cases instruction <;> rfl

@[simp] theorem calls_append (first second : List Instruction) :
    calls (first ++ second) = calls first ++ calls second :=
  List.filterMap_append

end Vm

/-- The code performs the calls at the sites, in this order, and no others. -/
structure Performs (known : SignatureTable) (sites : List CallSite) (code : List Instruction) :
    Prop where
  inOrder : calls code = sites.map (·.emitted known)
  accepted : ∀ site ∈ sites, site.check known = .ok ()

section

variable {known : SignatureTable} {sites : List CallSite} {code : List Instruction}

/-- Instructions that call nothing make no difference. -/
theorem Performs.of_calls {longer : List Instruction} (performs : Performs known sites code)
    (same : calls longer = calls code) : Performs known sites longer where
  inOrder := same.trans performs.inOrder
  accepted := performs.accepted

theorem performs_nothing (silent : calls code = []) : Performs known [] code where
  inOrder := silent
  accepted := by simp

theorem Performs.append {others : List CallSite} {further : List Instruction}
    (performs : Performs known sites code)
    (furtherPerforms : Performs known others further) :
    Performs known (sites ++ others) (code ++ further) where
  inOrder := by rw [calls_append, performs.inOrder, furtherPerforms.inOrder, List.map_append]
  accepted := List.forall_mem_append.mpr ⟨performs.accepted, furtherPerforms.accepted⟩

theorem performs_flatMap {α : Type} {sitesOf : α → List CallSite} {parts : List α}
    {blocks : List (List Instruction)}
    (each : List.Forall₂ (fun part block => Performs known (sitesOf part) block) parts blocks) :
    Performs known (parts.flatMap sitesOf) blocks.flatten := by
  induction each with
  | nil => exact performs_nothing rfl
  | cons first _ inductionHypothesis => exact first.append inductionHypothesis

theorem performs_implicit (known : SignatureTable) (callee : String) (count : Nat) :
    Performs known [⟨.implicit, callee, count⟩] [.call callee count] where
  inOrder := by simp [CallSite.emitted, CallSite.receivers]
  accepted := by simp [CallSite.check]

end

theorem BinaryOp.code_performs (known : SignatureTable) (op : BinaryOp) :
    Performs known op.callSites [op.code] := by
  cases op with
  | multiply => exact performs_implicit known Library.multiply 2
  | divide => exact performs_implicit known Library.divide 2
  | _ => exact performs_nothing rfl

theorem Constant.code_silent (constant : Constant) : calls constant.code = [] := by
  rcases constant with (_ | _) | _ | _ <;> rfl

theorem appendCode_performs (known : SignatureTable) (chars : List Char) :
    Performs known (chars.map fun _ => ⟨.implicit, Library.appendChar, 2⟩)
      (chars.flatMap fun c => [.push .constant c.toNat, .call Library.appendChar 2]) := by
  induction chars with
  | nil => exact performs_nothing rfl
  | cons c rest inductionHypothesis =>
      exact ((performs_implicit known Library.appendChar 2).append inductionHypothesis).of_calls
        rfl

theorem stringCode_performs (known : SignatureTable) (text : String) :
    Performs known (stringCallSites text) (stringCode text) :=
  ((performs_implicit known Library.newString 1).append
    (appendCode_performs known text.toList)).of_calls rfl

theorem SubroutineKind.entryCode_performs (known : SignatureTable) (kind : SubroutineKind)
    (fields : Nat) : Performs known kind.callSites (kind.entryCode fields) := by
  cases kind with
  | constructor => exact (performs_implicit known Library.allocate 1).of_calls rfl
  | _ => exact performs_nothing rfl

namespace Frame

variable {frame : Frame}

def surroundings (frame : Frame) : Surroundings where
  className := frame.className
  type? name := (frame.scope.get? name).map (·.type)

/-- A call without receiver pushes one unless it reaches a subroutine that takes none. -/
theorem receivers_unqualified (frame : Frame) (name : String) (supplied : Nat) :
    CallSite.receivers frame.signatures
        ⟨.unqualified, qualifiedName frame.className name, supplied⟩ =
      if frame.callsStatic name then 0 else 1 := by
  unfold CallSite.receivers callsStatic SignatureTable.get?
  cases frame.signatures.entries[qualifiedName frame.className name]? with
  | none => rfl
  | some signature =>
      by_cases isMethod : signature.kind = .method
      · simp [isMethod]
      · simp [isMethod]

/-- A call that reaches a class has a site, and pushes the receivers of the site. -/
theorem target_site {receiver : Option String} {name className : String}
    {receiverCode : List Instruction}
    (targeted : frame.target receiver name = .ok (className, receiverCode)) (supplied : Nat) :
    ∃ form, form ≠ .implicit ∧
      frame.surroundings.site? receiver name supplied =
        some ⟨form, qualifiedName className name, supplied⟩ ∧
      CallSite.receivers frame.signatures ⟨form, qualifiedName className name, supplied⟩ =
        receiverCode.length ∧
      calls receiverCode = [] := by
  cases receiver with
  | none =>
      cases targeted
      refine ⟨.unqualified, by decide, rfl, ?_, ?_⟩
      · rw [receivers_unqualified]
        split <;> rfl
      · split <;> rfl
  | some receiver =>
      simp only [target, Surroundings.site?, surroundings] at targeted ⊢
      cases bound : frame.scope.get? receiver with
      | none =>
          rw [bound] at targeted
          cases targeted
          exact ⟨.throughClass, by decide, rfl, rfl, rfl⟩
      | some binding =>
          rw [bound] at targeted
          obtain ⟨type, storage, index⟩ := binding
          cases type with
          | primitive type => cases targeted
          | object objectClass =>
              cases targeted
              exact ⟨.throughVariable, by decide, rfl, rfl, rfl⟩

theorem checkArity_eq {form : CallForm} (explicit : form ≠ .implicit) (className name : String)
    (supplied : Nat) :
    frame.checkArity className name supplied =
      CallSite.check frame.signatures ⟨form, qualifiedName className name, supplied⟩ := by
  rw [CallSite.check, if_neg explicit]
  rfl

end Frame

section

variable {frame : Frame}

mutual

theorem Term.code_performs : (term : Term) → {code : List Instruction} →
    term.code frame = .ok code →
    Performs frame.signatures (term.callSites frame.surroundings) code
  | .int _, _, generated => by
      cases generated
      exact performs_nothing rfl
  | .string text, _, generated => by
      cases generated
      exact stringCode_performs frame.signatures text
  | .constant value, _, generated => by
      cases generated
      exact performs_nothing value.code_silent
  | .var _, _, generated => by
      obtain ⟨segment, place, -, rfl⟩ := Term.code_var generated
      exact performs_nothing rfl
  | .item _ index, _, generated => by
      obtain ⟨segment, place, indexCode, -, indexGenerated, rfl⟩ := Term.code_item generated
      exact (Expression.code_performs index indexGenerated).of_calls (by simp)
  | .paren inner, _, generated => by
      rw [Term.code] at generated
      exact Expression.code_performs inner generated
  | .unary _ operand, _, generated => by
      obtain ⟨operandCode, operandGenerated, rfl⟩ := Term.code_unary generated
      exact (operand.code_performs operandGenerated).of_calls (by simp)
  | .call call, _, generated => by
      rw [Term.code] at generated
      exact call.code_performs generated

theorem Expression.code_performs : (elements : List Element) → {code : List Instruction} →
    Expression.code frame elements = .ok code →
    Performs frame.signatures (Expression.callSites frame.surroundings elements) code
  | [], _, generated => by simp [Expression.code] at generated
  | .op _ :: _, _, generated => by simp [Expression.code] at generated
  | .term first :: rest, _, generated => by
      rw [Expression.code] at generated
      obtain ⟨firstCode, firstGenerated, generated⟩ := bind_eq_ok_iff.mp generated
      obtain ⟨restCode, restGenerated, generated⟩ := bind_eq_ok_iff.mp generated
      cases generated
      have performed := Expression.operationsCode_performs rest [] restGenerated
      rw [List.flatMap_nil, List.append_nil] at performed
      exact (first.code_performs firstGenerated).append performed

/-- The operators that wait call the library when all operands are there. -/
theorem Expression.operationsCode_performs : (elements : List Element) →
    (pending : List BinaryOp) → {code : List Instruction} →
    Expression.operationsCode frame elements pending = .ok code →
    Performs frame.signatures
      (Expression.operationsCallSites frame.surroundings elements ++
        pending.flatMap BinaryOp.callSites) code
  | [], pending, _, generated => by
      cases generated
      induction pending with
      | nil => exact performs_nothing rfl
      | cons op _ inductionHypothesis =>
          exact (op.code_performs frame.signatures).append inductionHypothesis
  | .op op :: .term operand :: rest, pending, _, generated => by
      rw [Expression.operationsCode] at generated
      obtain ⟨operandCode, operandGenerated, generated⟩ := bind_eq_ok_iff.mp generated
      obtain ⟨restCode, restGenerated, generated⟩ := bind_eq_ok_iff.mp generated
      cases generated
      -- The operator waits with the others, in front of them.
      have performed := (operand.code_performs operandGenerated).append
        (Expression.operationsCode_performs rest (op :: pending) restGenerated)
      rw [Expression.operationsCallSites, List.append_assoc, List.append_assoc]
      exact performed
  | [.op _], _, _, generated => by simp [Expression.operationsCode] at generated
  | .op _ :: .op _ :: _, _, _, generated => by simp [Expression.operationsCode] at generated
  | .term _ :: _, _, _, generated => by simp [Expression.operationsCode] at generated

theorem Call.code_performs : (call : Call) → {code : List Instruction} →
    call.code frame = .ok code →
    Performs frame.signatures (call.callSites frame.surroundings) code
  | .mk receiver name arguments, _, generated => by
      obtain ⟨className, receiverCode, suppliedCode, targeted, checked, supplied, rfl⟩ :=
        Call.code_mk generated
      obtain ⟨form, explicit, found, receivers, silent⟩ :=
        Frame.target_site targeted arguments.length
      have performed : Performs frame.signatures
          [⟨form, qualifiedName className name, arguments.length⟩]
          [.call (qualifiedName className name) (receiverCode.length + arguments.length)] :=
        { inOrder := by simp [CallSite.emitted, receivers]
          accepted := by
            intro site membership
            rw [List.mem_singleton.mp membership, ← Frame.checkArity_eq explicit]
            exact checked }
      rw [Call.callSites, found]
      exact ((Call.argumentsCode_performs arguments supplied).append performed).of_calls
        (by simp [silent])

theorem Call.argumentsCode_performs : (arguments : List (List Element)) →
    {code : List Instruction} → Call.argumentsCode frame arguments = .ok code →
    Performs frame.signatures (Call.argumentsCallSites frame.surroundings arguments) code
  | [], _, generated => by
      cases generated
      exact performs_nothing rfl
  | first :: rest, _, generated => by
      obtain ⟨firstCode, restCode, firstGenerated, restGenerated, rfl⟩ :=
        Call.argumentsCode_cons generated
      exact (Expression.code_performs first firstGenerated).append
        (Call.argumentsCode_performs rest restGenerated)

end

namespace Statement

mutual

theorem code_performs : (statement : Statement) → {labels after : Labels} →
    {code : List Instruction} → statement.code frame labels = .ok (code, after) →
    Performs frame.signatures (statement.callSites frame.surroundings) code
  | .let _ none value, _, _, _, generated => by
      obtain ⟨segment, place, valueCode, -, valueGenerated, rfl, -⟩ := code_let generated
      exact (Expression.code_performs value valueGenerated).of_calls (by simp)
  | .let _ (some index) value, _, _, _, generated => by
      obtain ⟨segment, place, indexCode, valueCode, -, indexGenerated, valueGenerated, rfl, -⟩ :=
        code_letItem generated
      exact ((Expression.code_performs index indexGenerated).append
        (Expression.code_performs value valueGenerated)).of_calls (by simp)
  | .if condition thenBranch elseBranch, _, _, _, generated => by
      obtain ⟨conditionCode, thenCode, middle, elseCode, conditionGenerated, thenGenerated,
        elseGenerated, rfl⟩ := code_if generated
      exact (((Expression.code_performs condition conditionGenerated).append
        (codeAll_performs thenBranch thenGenerated)).append
        (codeAll_performs elseBranch elseGenerated)).of_calls (by simp)
  | .while condition body, _, _, _, generated => by
      obtain ⟨conditionCode, bodyCode, conditionGenerated, bodyGenerated, rfl⟩ :=
        code_while generated
      exact ((Expression.code_performs condition conditionGenerated).append
        (codeAll_performs body bodyGenerated)).of_calls (by simp)
  | .do call, _, _, _, generated => by
      obtain ⟨callCode, callGenerated, rfl, -⟩ := code_do generated
      exact (call.code_performs callGenerated).of_calls (by simp)
  | .return none, _, _, _, generated => by
      cases generated
      exact performs_nothing rfl
  | .return (some value), _, _, _, generated => by
      obtain ⟨valueCode, valueGenerated, rfl, -⟩ := code_return generated
      exact (Expression.code_performs value valueGenerated).of_calls (by simp)

theorem codeAll_performs : (statements : List Statement) → {labels after : Labels} →
    {code : List Instruction} → codeAll frame statements labels = .ok (code, after) →
    Performs frame.signatures (callSitesAll frame.surroundings statements) code
  | [], _, _, _, generated => by
      cases generated
      exact performs_nothing rfl
  | first :: rest, _, _, _, generated => by
      obtain ⟨firstCode, middle, restCode, firstGenerated, restGenerated, rfl⟩ :=
        codeAll_cons generated
      exact (code_performs first firstGenerated).append (codeAll_performs rest restGenerated)

end

end Statement

end

/-- The tables give every name the type that it is declared with. -/
theorem Class.surroundings_eq {cls : Class} {subroutine : Subroutine} {members own : SymbolTable}
    (membersRecord : members.Records cls.declarations)
    (ownRecord : own.Records subroutine.declarations) (signatures : SignatureTable) :
    (subroutine.frame cls.name signatures members own).surroundings =
      cls.surroundings subroutine := by
  simp only [Subroutine.frame, Frame.surroundings, Class.surroundings, Scope.get?,
    membersRecord.get?, ownRecord.get?, Class.locate?]

theorem Subroutine.code_performs {cls : Class} {subroutine : Subroutine} {members : SymbolTable}
    {known : SignatureTable} {block : List Instruction}
    (membersRecord : members.Records cls.declarations)
    (generated : subroutine.code cls.name members known = .ok block) :
    Performs known (subroutine.callSites cls) block := by
  obtain ⟨own, bodyCode, after, built, bodyGenerated, rfl⟩ := Subroutine.code_eq_ok generated
  have performed := Statement.codeAll_performs subroutine.body bodyGenerated
  rw [Class.surroundings_eq membersRecord (SymbolTable.records_ofSubroutine built)] at performed
  exact ((subroutine.kind.entryCode_performs known _).append performed).of_calls rfl

/-- The code of a class performs the calls of the class and no others. -/
theorem Class.code_performs {cls : Class} {known : SignatureTable} {code : List Instruction}
    (generated : cls.code known = .ok code) : Performs known cls.callSites code := by
  rw [Class.code] at generated
  obtain ⟨members, built, generated⟩ := bind_eq_ok_iff.mp generated
  obtain ⟨blocks, each, generated⟩ := bind_eq_ok_iff.mp generated
  cases generated
  apply performs_flatMap
  apply (forall₂_of_mapM_eq_ok each).imp
  intro subroutine block
  exact Subroutine.code_performs (SymbolTable.records_ofClass built)

end ClassLang
