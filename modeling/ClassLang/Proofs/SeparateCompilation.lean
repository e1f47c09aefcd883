import ClassLang.Proofs.BuildPhases
import ClassLang.Proofs.CallSites

/-!
What the code of a class depends on outside the class.

Its calls ask how many parameters a subroutine has, and those without receiver ask what kind of
subroutine it is. Nothing else of the other classes matters: two builds in which they answer
alike give a unit the same code.
-/

namespace ClassLang

open Vm

/-- With both tables the call pushes the same receivers and passes the same check. -/
structure CallSite.Agree (first second : SignatureTable) (site : CallSite) : Prop where
  receivers : site.receivers first = site.receivers second
  check : site.check first = site.check second

/-- The same place in the source, seen with other signatures. -/
def Frame.withSignatures (frame : Frame) (signatures : SignatureTable) : Frame :=
  { frame with signatures := signatures }

section

variable {frame : Frame} {other : SignatureTable}

namespace Frame

@[simp] theorem malformed_withSignatures :
    (frame.withSignatures other).malformed = frame.malformed := rfl

theorem target_withSignatures {receiver : Option String} {name : String} {supplied : Nat}
    (agree : ∀ site ∈ frame.surroundings.site? receiver name supplied,
      site.Agree frame.signatures other) :
    (frame.withSignatures other).target receiver name = frame.target receiver name := by
  cases receiver with
  | some receiver => rfl
  | none =>
      have same := (agree _ rfl).receivers
      have looked := receivers_unqualified frame name supplied
      have lookedOther := receivers_unqualified (frame.withSignatures other) name supplied
      have counts := looked.symm.trans (same.trans lookedOther)
      have sameKind :
          (frame.withSignatures other).callsStatic name = frame.callsStatic name := by
        revert counts
        cases frame.callsStatic name <;>
          cases (frame.withSignatures other).callsStatic name <;> simp
      simp only [target, sameKind]
      rfl

end Frame

mutual

theorem Term.code_congr : (term : Term) →
    (∀ site ∈ term.callSites frame.surroundings, site.Agree frame.signatures other) →
    term.code (frame.withSignatures other) = term.code frame
  | .int _, _ => rfl
  | .string _, _ => rfl
  | .constant _, _ => rfl
  | .var _, _ => rfl
  | .item _ index, agree => by
      rw [Term.callSites] at agree
      rw [Term.code, Term.code, Expression.code_congr index agree]
      rfl
  | .paren inner, agree => by
      rw [Term.callSites] at agree
      rw [Term.code, Term.code, Expression.code_congr inner agree]
  | .unary _ operand, agree => by
      rw [Term.callSites] at agree
      rw [Term.code, Term.code, operand.code_congr agree]
  | .call call, agree => by
      rw [Term.callSites] at agree
      rw [Term.code, Term.code, call.code_congr agree]

theorem Expression.code_congr : (elements : List Element) →
    (∀ site ∈ Expression.callSites frame.surroundings elements,
      site.Agree frame.signatures other) →
    Expression.code (frame.withSignatures other) elements = Expression.code frame elements
  | [], _ => rfl
  | .op _ :: _, _ => rfl
  | .term first :: rest, agree => by
      rw [Expression.callSites, List.forall_mem_append] at agree
      rw [Expression.code, Expression.code, first.code_congr agree.1,
        Expression.operationsCode_congr rest [] agree.2]

theorem Expression.operationsCode_congr : (elements : List Element) →
    (pending : List BinaryOp) →
    (∀ site ∈ Expression.operationsCallSites frame.surroundings elements,
      site.Agree frame.signatures other) →
    Expression.operationsCode (frame.withSignatures other) elements pending =
      Expression.operationsCode frame elements pending
  | [], _, _ => rfl
  | .op op :: .term operand :: rest, pending, agree => by
      rw [Expression.operationsCallSites, List.forall_mem_append, List.forall_mem_append] at agree
      rw [Expression.operationsCode, Expression.operationsCode, operand.code_congr agree.1.1,
        Expression.operationsCode_congr rest (op :: pending) agree.1.2]
  | [.op _], _, _ => by simp [Expression.operationsCode]
  | .op _ :: .op _ :: _, _, _ => by simp [Expression.operationsCode]
  | .term _ :: _, _, _ => by simp [Expression.operationsCode]

theorem Call.code_congr : (call : Call) →
    (∀ site ∈ call.callSites frame.surroundings, site.Agree frame.signatures other) →
    call.code (frame.withSignatures other) = call.code frame
  | .mk receiver name arguments, agree => by
      rw [Call.callSites, List.forall_mem_append] at agree
      obtain ⟨argumentsAgree, ownAgree⟩ := agree
      simp only [Option.mem_toList] at ownAgree
      rw [Call.code, Call.code, Frame.target_withSignatures ownAgree,
        Call.argumentsCode_congr arguments argumentsAgree]
      cases targeted : frame.target receiver name with
      | error error => rw [error_bind, error_bind]
      | ok reached =>
          obtain ⟨className, receiverCode⟩ := reached
          obtain ⟨form, explicit, found, -, -⟩ := Frame.target_site targeted arguments.length
          have checked : (frame.withSignatures other).checkArity className name arguments.length =
              frame.checkArity className name arguments.length := by
            rw [Frame.checkArity_eq explicit, Frame.checkArity_eq explicit]
            exact (ownAgree _ found).check.symm
          simp only [ok_bind, checked]

theorem Call.argumentsCode_congr : (arguments : List (List Element)) →
    (∀ site ∈ Call.argumentsCallSites frame.surroundings arguments,
      site.Agree frame.signatures other) →
    Call.argumentsCode (frame.withSignatures other) arguments =
      Call.argumentsCode frame arguments
  | [], _ => rfl
  | first :: rest, agree => by
      rw [Call.argumentsCallSites, List.forall_mem_append] at agree
      rw [Call.argumentsCode, Call.argumentsCode, Expression.code_congr first agree.1,
        Call.argumentsCode_congr rest agree.2]

end

namespace Statement

mutual

theorem code_congr : (statement : Statement) →
    (∀ site ∈ statement.callSites frame.surroundings, site.Agree frame.signatures other) →
    (labels : Labels) →
    statement.code (frame.withSignatures other) labels = statement.code frame labels
  | .let _ none value, agree, _ => by
      rw [callSites] at agree
      rw [Statement.code, Statement.code, Expression.code_congr value agree]
      rfl
  | .let _ (some index) value, agree, _ => by
      rw [callSites, List.forall_mem_append] at agree
      rw [Statement.code, Statement.code, Expression.code_congr index agree.1,
        Expression.code_congr value agree.2]
      rfl
  | .if condition thenBranch elseBranch, agree, _ => by
      rw [callSites, List.forall_mem_append, List.forall_mem_append] at agree
      simp only [Statement.code, Expression.code_congr condition agree.1.1,
        codeAll_congr thenBranch agree.1.2, codeAll_congr elseBranch agree.2]
  | .while condition body, agree, _ => by
      rw [callSites, List.forall_mem_append] at agree
      rw [Statement.code, Statement.code, Expression.code_congr condition agree.1,
        codeAll_congr body agree.2]
  | .do call, agree, _ => by
      rw [callSites] at agree
      rw [Statement.code, Statement.code, call.code_congr agree]
  | .return none, _, _ => rfl
  | .return (some value), agree, _ => by
      rw [callSites] at agree
      rw [Statement.code, Statement.code, Expression.code_congr value agree]

theorem codeAll_congr : (statements : List Statement) →
    (∀ site ∈ callSitesAll frame.surroundings statements, site.Agree frame.signatures other) →
    (labels : Labels) →
    codeAll (frame.withSignatures other) statements labels = codeAll frame statements labels
  | [], _, _ => rfl
  | first :: rest, agree, _ => by
      rw [callSitesAll, List.forall_mem_append] at agree
      simp only [codeAll, code_congr first agree.1, codeAll_congr rest agree.2]

end

end Statement

end

theorem Subroutine.code_congr {cls : Class} {subroutine : Subroutine} {members : SymbolTable}
    {first second : SignatureTable} (membersRecord : members.Records cls.declarations)
    (agree : ∀ site ∈ subroutine.callSites cls, site.Agree first second) :
    subroutine.code cls.name members first = subroutine.code cls.name members second := by
  rw [Subroutine.callSites, List.forall_mem_append] at agree
  rw [Subroutine.code, Subroutine.code]
  cases built : SymbolTable.ofSubroutine cls.name subroutine with
  | error error => rw [error_bind, error_bind]
  | ok own =>
      have bodyAgree := agree.2
      rw [← Class.surroundings_eq membersRecord (SymbolTable.records_ofSubroutine built) first]
        at bodyAgree
      have sameBody := Statement.codeAll_congr subroutine.body bodyAgree {}
      simp only [ok_bind, ← sameBody]
      rfl

/-- The code of a class, or the error that there is instead, depends on the signatures only through
the calls of the class. -/
theorem Class.code_congr {cls : Class} {first second : SignatureTable}
    (agree : ∀ site ∈ cls.callSites, site.Agree first second) :
    cls.code first = cls.code second := by
  rw [Class.code, Class.code]
  cases built : SymbolTable.ofClass cls with
  | error error => rw [error_bind, error_bind]
  | ok members =>
      have blocks : ∀ subroutine ∈ cls.subroutines,
          subroutine.code cls.name members first = subroutine.code cls.name members second := by
        intro subroutine membership
        apply Subroutine.code_congr (SymbolTable.records_ofClass built)
        intro site inside
        exact agree site (List.mem_flatMap.mpr ⟨subroutine, membership, inside⟩)
      rw [ok_bind, ok_bind, mapM_congr blocks]

/-- Both tables know the subroutine that is called, or none does. If they do, they give it as many
parameters, and for a call without receiver also the same kind. -/
def CallSite.SameAnswers (first second : SignatureTable) (site : CallSite) : Prop :=
  site.form ≠ .implicit →
    first.entries[site.callee]?.map (·.parameters) =
        second.entries[site.callee]?.map (·.parameters) ∧
      (site.form = .unqualified →
        first.entries[site.callee]?.map (·.kind) = second.entries[site.callee]?.map (·.kind))

namespace CallSite.SameAnswers

variable {first second : SignatureTable} {site : CallSite}

theorem check_eq (same : site.SameAnswers first second) :
    site.check first = site.check second := by
  by_cases implicit : site.form = .implicit
  · rw [check, check, if_pos implicit, if_pos implicit]
  · have parameters := (same implicit).1
    rw [check, check, if_neg implicit, if_neg implicit]
    cases found : first.entries[site.callee]? with
    | none =>
        have absent : second.entries[site.callee]? = none := by simpa [found] using parameters
        rw [absent]
    | some signature =>
        rw [found, Option.map_some] at parameters
        obtain ⟨other, foundOther, equal⟩ := Option.map_eq_some_iff.mp parameters.symm
        rw [foundOther]
        simp only [equal]

theorem receivers_eq (same : site.SameAnswers first second) :
    site.receivers first = site.receivers second := by
  obtain ⟨form, callee, supplied⟩ := site
  cases form with
  | implicit => rfl
  | throughVariable => rfl
  | throughClass => rfl
  | unqualified =>
      have kinds : first.entries[callee]?.map (·.kind) = second.entries[callee]?.map (·.kind) :=
        (same CallForm.noConfusion).2 rfl
      unfold receivers
      cases found : first.entries[callee]? with
      | none =>
          have absent : second.entries[callee]? = none := by simpa [found] using kinds
          simp only [absent]
      | some signature =>
          rw [found, Option.map_some] at kinds
          obtain ⟨other, foundOther, equal⟩ := Option.map_eq_some_iff.mp kinds.symm
          simp only [foundOther, equal]

theorem agree (same : site.SameAnswers first second) : site.Agree first second :=
  ⟨same.receivers_eq, same.check_eq⟩

end CallSite.SameAnswers

/-- What a call can ask about a subroutine. -/
def Signature.shape (signature : Signature) : SubroutineKind × Nat :=
  (signature.kind, signature.parameters)

/-- Tables that give every name the same shape answer every call alike. -/
theorem sameAnswers_of_shape {first second : SignatureTable}
    (same : ∀ name : String,
      first.entries[name]?.map Signature.shape = second.entries[name]?.map Signature.shape)
    (site : CallSite) : site.SameAnswers first second := by
  have parameters := congrArg (Option.map Prod.snd) (same site.callee)
  have kinds := congrArg (Option.map Prod.fst) (same site.callee)
  rw [Option.map_map, Option.map_map] at parameters kinds
  intro _
  exact ⟨parameters, fun _ => kinds⟩

namespace Build

/-- The subroutines that the units offer: their qualified names and shapes. -/
def interface (units : List SourceUnit) : List (String × SubroutineKind × Nat) :=
  (declared units).map fun entry => (entry.1, entry.2.shape)

theorem interface_cons (source : SourceUnit) (units : List SourceUnit) :
    interface (source :: units) = interface [source] ++ interface units := by
  simp [interface, declared]

theorem interface_of_parse {source : SourceUnit} {cls : Class}
    (parsed : Class.parse source.text = .ok cls) :
    interface [source] = cls.signatures.map fun entry => (entry.1, entry.2.shape) := by
  rw [interface, declared, List.flatMap_cons, List.flatMap_nil, List.append_nil,
    unitSignatures_of_parse parsed]

/-- Only the text of a unit counts. -/
theorem interface_singleton_eq {source other : SourceUnit} (same : source.text = other.text) :
    interface [source] = interface [other] := by
  have signatures : unitSignatures source = unitSignatures other := by
    unfold unitSignatures
    rw [same]
  simp [interface, declared, signatures]

theorem mem_interface_iff {units : List SourceUnit} {place : Nat} {source : SourceUnit}
    (found : units[place]? = some source) (entry : String × SubroutineKind × Nat) :
    entry ∈ interface units ↔
      entry ∈ interface [source] ∨ entry ∈ interface (units.eraseIdx place) := by
  obtain ⟨inside, rfl⟩ := List.getElem?_eq_some_iff.mp found
  have rearranged := List.getElem_cons_eraseIdx_perm inside
  have sameEntries : (interface (units[place] :: units.eraseIdx place)).Perm (interface units) :=
    (rearranged.flatMap_right unitSignatures).map _
  rw [← sameEntries.mem_iff, interface_cons, List.mem_append]

/-- A unit of the same text among units that offer the same makes the same whole. -/
theorem mem_interface_congr {units others : List SourceUnit} {place otherPlace : Nat}
    {source other : SourceUnit} (found : units[place]? = some source)
    (otherFound : others[otherPlace]? = some other) (sameText : source.text = other.text)
    (sameOthers : ∀ entry, entry ∈ interface (units.eraseIdx place) ↔
      entry ∈ interface (others.eraseIdx otherPlace)) (entry : String × SubroutineKind × Nat) :
    entry ∈ interface units ↔ entry ∈ interface others := by
  rw [mem_interface_iff found, mem_interface_iff otherFound, sameOthers,
    interface_singleton_eq sameText]

theorem shape_eq_some_iff {base : SignatureTable} {units : List SourceUnit}
    (holds : base.Holds (declared units)) (name : String) (shape : SubroutineKind × Nat) :
    base.entries[name]?.map Signature.shape = some shape ↔ (name, shape) ∈ interface units := by
  rw [Option.map_eq_some_iff, interface, List.mem_map]
  constructor
  · rintro ⟨signature, found, rfl⟩
    exact ⟨(name, signature), (holds.found _ _).mp found, rfl⟩
  · rintro ⟨⟨_, signature⟩, membership, equal⟩
    cases equal
    exact ⟨signature, (holds.found _ _).mpr membership, rfl⟩

/-- Builds that offer the same also agree on the library, since a unit hides the same part of it in
both. -/
theorem shape_completed_eq {base otherBase : SignatureTable} {units others : List SourceUnit}
    (holds : base.Holds (declared units)) (otherHolds : otherBase.Holds (declared others))
    (same : ∀ entry, entry ∈ interface units ↔ entry ∈ interface others) (library : Bool)
    (name : String) :
    (base.completed library).entries[name]?.map Signature.shape =
      (otherBase.completed library).entries[name]?.map Signature.shape := by
  have known : base.entries[name]?.map Signature.shape =
      otherBase.entries[name]?.map Signature.shape := by
    apply Option.ext
    intro shape
    rw [shape_eq_some_iff holds, shape_eq_some_iff otherHolds, same]
  rw [SignatureTable.getElem?_completed, SignatureTable.getElem?_completed, Option.map_or,
    Option.map_or, known]

theorem exists_code_of_compiles {units : List SourceUnit} {compiled : List CompiledUnit}
    {known : SignatureTable} (results : List.Forall₂ (Compiles known) units compiled)
    {place : Nat} {source : SourceUnit} (found : units[place]? = some source) :
    ∃ cls code, Class.parse source.text = .ok cls ∧ cls.code known = .ok code ∧
      compiled[place]? = some ⟨source.name, code⟩ := by
  obtain ⟨⟨name, code⟩, foundResult, cls, parsed, rfl, generated⟩ :=
    forall₂_getElem? results found
  exact ⟨cls, code, parsed, generated, foundResult⟩

/-- A class is compiled separately: its code, or its error, depends on the signatures only through
the answers that its calls get. So a unit has the same code in two builds if the other units
offer the same subroutines there. -/
theorem code_depends_on_interfaces_only :
    (∀ (cls : Class) (first second : SignatureTable),
      (∀ site ∈ cls.callSites, site.SameAnswers first second) →
        cls.code first = cls.code second) ∧
    ∀ (library : Bool) (units others : List SourceUnit)
      (compiled othersCompiled : List CompiledUnit),
      compile library units = .ok compiled → compile library others = .ok othersCompiled →
      ∀ (place otherPlace : Nat) (source other : SourceUnit),
        units[place]? = some source → others[otherPlace]? = some other →
        source.text = other.text →
        (∀ entry, entry ∈ interface (units.eraseIdx place) ↔
          entry ∈ interface (others.eraseIdx otherPlace)) →
        ∃ code, compiled[place]? = some ⟨source.name, code⟩ ∧
          othersCompiled[otherPlace]? = some ⟨other.name, code⟩ := by
  constructor
  · intro cls first second same
    apply Class.code_congr
    intro site membership
    exact (same site membership).agree
  · intro library units others compiled othersCompiled built otherBuilt place otherPlace source
      other found otherFound sameText sameOthers
    obtain ⟨base, holds, results⟩ := compile_eq_ok_iff.mp built
    obtain ⟨otherBase, otherHolds, otherResults⟩ := compile_eq_ok_iff.mp otherBuilt
    have same := mem_interface_congr found otherFound sameText sameOthers
    obtain ⟨cls, code, parsed, generated, placed⟩ := exists_code_of_compiles results found
    obtain ⟨otherCls, otherCode, otherParsed, otherGenerated, otherPlaced⟩ :=
      exists_code_of_compiles otherResults otherFound
    have sameClass : cls = otherCls := by
      rw [sameText, otherParsed] at parsed
      exact (Except.ok.inj parsed).symm
    subst sameClass
    have sameShapes := shape_completed_eq holds otherHolds same library
    have sameCode : cls.code (base.completed library) = cls.code (otherBase.completed library) := by
      apply Class.code_congr
      intro site _
      exact (sameAnswers_of_shape sameShapes site).agree
    rw [generated, otherGenerated] at sameCode
    cases sameCode
    exact ⟨code, placed, otherPlaced⟩

/-- Another lamp, which is used like the first. -/
def lantern : SourceUnit where
  name := "Lantern"
  text := "class Lamp \x7b method boolean used(char c) \x7b return true; \x7d \x7d"

def lanternClass : Class where
  name := "Lamp"
  members := []
  subroutines := [
    { kind := .method
      returnType := .value (.primitive .boolean)
      name := "used"
      parameters := [⟨.primitive .char, "c"⟩]
      locals := []
      body := [.return (some [.term (.constant (.boolean true))])] }]

def lanternCode : List Instruction :=
  [.function "Lamp.used" 0, .push .argument 0, .pop .pointer 0, .push .constant 0, .operate .not,
    .return]

theorem parse_lantern : Class.parse lantern.text = .ok lanternClass := by decide +kernel

theorem compile_lantern_room :
    compile true [lantern, room] = .ok [⟨"Lantern", lanternCode⟩, ⟨"Room", roomCode⟩] := by
  have read : classes [lantern, room] = .ok [("Lantern", lanternClass), ("Room", roomClass)] :=
    classes_eq_ok_iff.mpr (.cons ⟨rfl, parse_lantern⟩ (.cons ⟨rfl, parse_room⟩ .nil))
  rw [compile, read]
  rfl

/-- A table that knows a single subroutine. -/
def onlyUsed (kind : SubroutineKind) : SignatureTable :=
  SignatureTable.insertDefault {} "Lamp.used" ⟨.void, kind, 1⟩

theorem room_sameAnswers :
    ∀ site ∈ roomClass.callSites, site.SameAnswers (onlyUsed .method) (onlyUsed .function) := by
  have sites : roomClass.callSites = [⟨.throughVariable, "Lamp.used", 1⟩] := rfl
  rw [sites, List.forall_mem_singleton]
  intro _
  exact ⟨rfl, CallForm.noConfusion⟩

theorem room_separate_from_lamp :
    (∀ site ∈ roomClass.callSites,
      site.SameAnswers (onlyUsed .method) (onlyUsed .function)) ∧
    roomClass.code (onlyUsed .method) = roomClass.code (onlyUsed .function) ∧
    compile true [room, lamp] = .ok [⟨"Room", roomCode⟩, ⟨"Lamp", lampCode⟩] ∧
    compile true [lantern, room] = .ok [⟨"Lantern", lanternCode⟩, ⟨"Room", roomCode⟩] ∧
    (∀ entry, entry ∈ interface ([room, lamp].eraseIdx 0) ↔
      entry ∈ interface ([lantern, room].eraseIdx 1)) ∧
    ∃ code, [(⟨"Room", roomCode⟩ : CompiledUnit), ⟨"Lamp", lampCode⟩][0]? =
        some ⟨"Room", code⟩ ∧
      [(⟨"Lantern", lanternCode⟩ : CompiledUnit), ⟨"Room", roomCode⟩][1]? =
        some ⟨"Room", code⟩ := by
  have same : ∀ entry, entry ∈ interface ([room, lamp].eraseIdx 0) ↔
      entry ∈ interface ([lantern, room].eraseIdx 1) := by
    intro entry
    rw [List.eraseIdx_cons_zero, List.eraseIdx_cons_succ, List.eraseIdx_cons_zero,
      interface_of_parse parse_lamp, interface_of_parse parse_lantern]
    exact Iff.rfl
  obtain ⟨separate, together⟩ := code_depends_on_interfaces_only
  exact ⟨room_sameAnswers, separate _ _ _ room_sameAnswers, compile_room_lamp,
    compile_lantern_room, same, together true _ _ _ _ compile_room_lamp compile_lantern_room 0 1
      room room rfl rfl rfl same⟩

end Build

end ClassLang
