import ClassLang.Proofs.BuildOutcome
import ClassLang.Proofs.CallSites
import ClassLang.Proofs.Jumps
import ClassLang.Proofs.RoundTrip

/-!
The text of a program determines the program, as long as no name in it holds a newline.

An instruction is known from its words, which single blanks divide. A name may have blanks of its
own: the word before the name tells the instruction, and a number behind it is the last word. The
names in the code of a source are made from its identifiers, so they hold no newline.
-/

namespace ClassLang

namespace Vm

theorem not_mem_toDigits {c : Char} (other : c.isDigit = false) (number : Nat) :
    c ∉ Nat.toDigits 10 number := by
  intro membership
  rw [Nat.isDigit_of_mem_toDigits (by decide) (by decide) membership] at other
  contradiction

theorem splitOn_blank (first second : String) :
    (first ++ " " ++ second).toList.splitOn ' ' =
      first.toList.splitOn ' ' ++ second.toList.splitOn ' ' := by
  rw [String.toList_append, String.toList_append, List.append_assoc]
  exact List.splitOn_append_cons_self first.toList second.toList

/-- A text of one word. -/
def alone (word : String) : List (List Char) := [word.toList]

/-- The words of a text that goes on with a name behind its first word. -/
def named (opening name : String) : List (List Char) :=
  opening.toList :: name.toList.splitOn ' '

/-- The words of a text that ends with a number behind a name. -/
def numbered (opening name : String) (number : Nat) : List (List Char) :=
  named opening name ++ [(toString number).toList]

theorem splitOn_named (opening : String) (single : ' ' ∉ opening.toList) (name : String) :
    (opening ++ " " ++ name).toList.splitOn ' ' = named opening name := by
  rw [splitOn_blank, List.splitOn_eq_singleton single]
  rfl

theorem splitOn_numbered (opening : String) (single : ' ' ∉ opening.toList) (name : String)
    (number : Nat) :
    (opening ++ " " ++ name ++ " " ++ toString number).toList.splitOn ' ' =
      numbered opening name number := by
  have noBlank : ' ' ∉ (toString number).toList := by
    simpa using not_mem_toDigits (by decide) number
  rw [splitOn_blank, splitOn_named opening single, List.splitOn_eq_singleton noBlank]
  rfl

section

variable {opening other first second : String} {number further : Nat}

@[simp] theorem named_inj :
    named opening first = named other second ↔ opening = other ∧ first = second := by
  constructor
  · intro same
    obtain ⟨sameOpening, sameWords⟩ := List.cons.inj same
    refine ⟨String.toList_inj.mp sameOpening, String.toList_inj.mp ?_⟩
    rw [← @List.intercalate_splitOn _ first.toList, sameWords, List.intercalate_splitOn]
  · rintro ⟨rfl, rfl⟩
    rfl

@[simp] theorem numbered_inj :
    numbered opening first number = numbered other second further ↔
      opening = other ∧ first = second ∧ number = further := by
  constructor
  · intro same
    obtain ⟨sameNamed, sameNumber⟩ := List.append_inj' same rfl
    obtain ⟨sameOpening, sameName⟩ := named_inj.mp sameNamed
    refine ⟨sameOpening, sameName, Nat.repr_inj.mp ?_⟩
    exact String.toList_inj.mp (List.singleton_inj.mp sameNumber)
  · rintro ⟨rfl, rfl, rfl⟩
    rfl

@[simp] theorem alone_inj : alone opening = alone other ↔ opening = other := by
  simp [alone, String.toList_inj]

theorem alone_ne_named : alone opening ≠ named other first :=
  fun same => List.splitOn_ne_nil ' ' _ (List.cons.inj same).2.symm

theorem alone_ne_numbered : alone opening ≠ numbered other first number :=
  fun same => List.append_ne_nil_of_right_ne_nil _ (by simp) (List.cons.inj same).2.symm

/-- A number can be part of a name, so that only the first word tells the two forms apart. -/
theorem named_ne_numbered (apart : opening ≠ other) :
    named opening first ≠ numbered other second number :=
  fun same => apart (String.toList_inj.mp (List.cons.inj same).1)

end

@[simp] theorem Segment.word_inj {first second : Segment} :
    first.word = second.word ↔ first = second := by
  cases first <;> cases second <;> simp [word]

@[simp] theorem Operation.word_inj {first second : Operation} :
    first.word = second.word ↔ first = second := by
  cases first <;> cases second <;> simp [word]

theorem Operation.word_ne_return (operation : Operation) : operation.word ≠ "return" := by
  cases operation <;> decide

namespace Instruction

/-- What stands between the blanks in the text of an instruction. -/
def words : Instruction → List (List Char)
  | .push segment index => numbered "push" segment.word index
  | .pop segment index => numbered "pop" segment.word index
  | .operate operation => alone operation.word
  | .label name => named "label" name
  | .goto name => named "goto" name
  | .ifGoto name => named "if-goto" name
  | .call name arguments => numbered "call" name arguments
  | .function name locals => numbered "function" name locals
  | .return => alone "return"

theorem splitOn_text (instruction : Instruction) :
    instruction.text.toList.splitOn ' ' = instruction.words := by
  cases instruction with
  | push segment index => exact splitOn_numbered "push" (by decide) segment.word index
  | pop segment index => exact splitOn_numbered "pop" (by decide) segment.word index
  | operate operation => cases operation <;> rfl
  | label name => exact splitOn_named "label" (by decide) name
  | goto name => exact splitOn_named "goto" (by decide) name
  | ifGoto name => exact splitOn_named "if-goto" (by decide) name
  | call name arguments => exact splitOn_numbered "call" (by decide) name arguments
  | function name locals => exact splitOn_numbered "function" (by decide) name locals
  | «return» => rfl

/-- The first word tells what kind of instruction it is. -/
theorem words_inj {first second : Instruction} (same : first.words = second.words) :
    first = second := by
  cases first <;> cases second <;>
    simp_all [words, alone_ne_named, alone_ne_named.symm, alone_ne_numbered,
      alone_ne_numbered.symm, named_ne_numbered, (named_ne_numbered _).symm,
      Operation.word_ne_return, (Operation.word_ne_return _).symm]

theorem text_inj {first second : Instruction} (same : first.text = second.text) :
    first = second := by
  apply words_inj
  rw [← splitOn_text, same, splitOn_text]

/-- The label or the subroutine that the instruction names. -/
def name? : Instruction → Option String
  | .label name => some name
  | .goto name => some name
  | .ifGoto name => some name
  | .call name _ => some name
  | .function name _ => some name
  | _ => none

theorem newline_not_mem_text {instruction : Instruction}
    (single : ∀ name ∈ instruction.name?, '\n' ∉ name.toList) :
    '\n' ∉ instruction.text.toList := by
  have inNumber (number : Nat) : '\n' ∉ Nat.toDigits 10 number :=
    not_mem_toDigits (by decide) number
  cases instruction with
  | push segment index => cases segment <;> simp [text, Segment.word, inNumber]
  | pop segment index => cases segment <;> simp [text, Segment.word, inNumber]
  | operate operation => cases operation <;> decide
  | «return» => decide
  | _ => simpa [text, name?, inNumber] using single

end Instruction

/-- No name in the code holds a newline. -/
def SingleLined (code : List Instruction) : Prop :=
  ∀ instruction ∈ code, ∀ name ∈ instruction.name?, '\n' ∉ name.toList

/-- Cut at its newlines, the text of a program has one piece for every instruction and nothing
behind the last of them. -/
theorem splitOn_render {code : List Instruction} (single : SingleLined code) :
    (render code).toList.splitOn '\n' = code.map (·.text.toList) ++ [[]] := by
  induction code with
  | nil => rfl
  | cons instruction rest inductionHypothesis =>
      obtain ⟨singleFirst, singleRest⟩ := List.forall_mem_cons.mp single
      rw [render_cons, String.toList_append, String.toList_append, List.append_assoc]
      have cut := List.splitOn_append_cons_self_of_not_mem
        (Instruction.newline_not_mem_text singleFirst) (render rest).toList
      rw [inductionHypothesis singleRest] at cut
      exact cut

theorem render_inj {first second : List Instruction} (singleFirst : SingleLined first)
    (singleSecond : SingleLined second) (same : render first = render second) :
    first = second := by
  have sameLines : first.map (·.text.toList) ++ [[]] = second.map (·.text.toList) ++ [[]] := by
    rw [← splitOn_render singleFirst, same, splitOn_render singleSecond]
  refine (List.map_inj_right ?_).mp (List.append_cancel_right sameLines)
  intro instruction other sameText
  exact Instruction.text_inj (String.toList_inj.mp sameText)

end Vm

open Vm

/-! The names in generated code. -/

theorem Subroutine.label_of_mem_code {className : String} {members : SymbolTable}
    {signatures : SignatureTable} {subroutine : Subroutine} {block : List Instruction}
    (generated : subroutine.code className members signatures = .ok block) {name : String}
    (mentioned : name ∈ labelNames block ∨ name ∈ targets block) :
    ∃ role number, name = labelName role number := by
  obtain ⟨own, bodyCode, after, -, bodyGenerated, rfl⟩ := Subroutine.code_eq_ok generated
  have plain := subroutine.kind.entryCode_plain (members.count .field)
  have labelled : name ∈ labelNames bodyCode := by
    simp only [List.cons_append, labelNames_cons, labelNames_append, labelNames_eq_nil plain,
      targets_cons, targets_append, targets_eq_nil plain, Instruction.target?, Option.toList_none,
      List.nil_append] at mentioned
    exact mentioned.elim id ((Statement.codeAll_jumpsInside _ bodyGenerated).reached name)
  obtain ⟨role, number, named, -⟩ :=
    (Statement.codeAll_spent subroutine.body bodyGenerated).issued name labelled
  exact ⟨role, number, named⟩

theorem Class.exists_block {cls : Class} {signatures : SignatureTable} {code : List Instruction}
    (generated : cls.code signatures = .ok code) {instruction : Instruction}
    (membership : instruction ∈ code) :
    ∃ members subroutine block, instruction ∈ block ∧
      Subroutine.code cls.name members signatures subroutine = .ok block := by
  rw [Class.code] at generated
  obtain ⟨members, -, generated⟩ := bind_eq_ok_iff.mp generated
  obtain ⟨parts, produced, generated⟩ := bind_eq_ok_iff.mp generated
  cases generated
  obtain ⟨block, inParts, inBlock⟩ := List.mem_flatten.mp membership
  obtain ⟨position, found⟩ := List.mem_iff_getElem?.mp inParts
  obtain ⟨subroutine, -, blockGenerated⟩ :=
    forall₂_getElem? (forall₂_of_mapM_eq_ok produced).flip found
  exact ⟨members, subroutine, block, inBlock, blockGenerated⟩

/-- A name in the code of a class is a label, or the callee of one of its calls, or one of its own
subroutines. -/
theorem Class.name_of_mem_code {cls : Class} {signatures : SignatureTable}
    {code : List Instruction} (generated : cls.code signatures = .ok code)
    {instruction : Instruction} (membership : instruction ∈ code) {name : String}
    (mentioned : name ∈ instruction.name?) :
    (∃ role number, name = labelName role number) ∨
      (∃ site ∈ cls.callSites, name = site.callee) ∨ name ∈ cls.subroutineNames := by
  obtain ⟨members, subroutine, block, inBlock, blockGenerated⟩ :=
    Class.exists_block generated membership
  cases instruction with
  | label label =>
      cases mentioned
      exact .inl (Subroutine.label_of_mem_code blockGenerated
        (.inl (List.mem_filterMap.mpr ⟨_, inBlock, rfl⟩)))
  | goto label =>
      cases mentioned
      exact .inl (Subroutine.label_of_mem_code blockGenerated
        (.inr (mem_targets.mpr (.inl inBlock))))
  | ifGoto label =>
      cases mentioned
      exact .inl (Subroutine.label_of_mem_code blockGenerated
        (.inr (mem_targets.mpr (.inr inBlock))))
  | call callee count =>
      cases mentioned
      have called : (name, count) ∈ calls code :=
        List.mem_filterMap.mpr ⟨_, membership, rfl⟩
      rw [(Class.code_performs generated).inOrder] at called
      obtain ⟨site, inSites, same⟩ := List.mem_map.mp called
      exact .inr (.inl ⟨site, inSites, (congrArg Prod.fst same).symm⟩)
  | function head count =>
      cases mentioned
      have defined : name ∈ heads code := List.mem_filterMap.mpr ⟨_, membership, rfl⟩
      rw [Class.heads_code generated] at defined
      exact .inr (.inr defined)
  | _ => cases mentioned

/-! The names that a source is made from. -/

theorem IsName.newline_not_mem {name : String} (isName : IsName name) : '\n' ∉ name.toList := by
  obtain ⟨⟨first, rest, shape, starts, goesOn⟩, -⟩ := isName
  have stops : Token.continuesWord '\n' = false :=
    Token.not_continuesWord_of_isBlank (by decide)
  intro membership
  rw [shape] at membership
  have continues : Token.continuesWord '\n' = true := by
    rcases List.mem_cons.mp membership with newline | inside
    · rw [newline]
      exact Token.continuesWord_of_startsWord starts
    · exact goesOn _ inside
  rw [stops] at continues
  contradiction

theorem newline_not_mem_qualifiedName {className name : String} (isClass : IsName className)
    (isName : IsName name) : '\n' ∉ (qualifiedName className name).toList := by
  simp [qualifiedName, isClass.newline_not_mem, isName.newline_not_mem]

theorem newline_not_mem_labelName (role : LabelRole) (number : Nat) :
    '\n' ∉ (labelName role number).toList := by
  have inNumber : '\n' ∉ Nat.toDigits 10 number := not_mem_toDigits (by decide) number
  cases role <;> simp [labelName, LabelRole.word, inNumber]

/-- The classes that calls can reach from a body bear names. -/
structure Surroundings.Named (around : Surroundings) : Prop where
  className : IsName around.className
  type? : ∀ name className, around.type? name = some (.object className) → IsName className

/-- No callee of the sites holds a newline. -/
def SingleLinedSites (sites : List CallSite) : Prop :=
  ∀ site ∈ sites, '\n' ∉ site.callee.toList

@[simp] theorem singleLinedSites_append {first second : List CallSite} :
    SingleLinedSites (first ++ second) ↔ SingleLinedSites first ∧ SingleLinedSites second :=
  List.forall_mem_append

theorem singleLinedSites_nil : SingleLinedSites [] := by simp [SingleLinedSites]

theorem stringCallSites_singleLined (text : String) : SingleLinedSites (stringCallSites text) := by
  intro site membership
  rcases List.mem_cons.mp membership with rfl | appended
  · decide
  · obtain ⟨c, -, rfl⟩ := List.mem_map.mp appended
    decide

theorem BinaryOp.callSites_singleLined (op : BinaryOp) : SingleLinedSites op.callSites := by
  cases op <;> simp [BinaryOp.callSites, SingleLinedSites, Library.multiply, Library.divide]

theorem SubroutineKind.callSites_singleLined (kind : SubroutineKind) :
    SingleLinedSites kind.callSites := by
  cases kind <;> simp [SubroutineKind.callSites, SingleLinedSites, Library.allocate]

section

variable {around : Surroundings}

theorem Surroundings.Named.site_singleLined (named : around.Named) {receiver : Option String}
    {name : String} (isName : IsName name) (isReceiver : ∀ given ∈ receiver, IsName given)
    (supplied : Nat) : SingleLinedSites (around.site? receiver name supplied).toList := by
  intro site membership
  have found := Option.mem_toList.mp membership
  cases receiver with
  | none =>
      cases found
      exact newline_not_mem_qualifiedName named.className isName
  | some receiver =>
      cases typed : around.type? receiver with
      | none =>
          rw [Surroundings.site?, typed] at found
          cases found
          exact newline_not_mem_qualifiedName (isReceiver receiver rfl) isName
      | some type =>
          rw [Surroundings.site?, typed] at found
          cases type with
          | primitive type => cases found
          | object className =>
              cases found
              exact newline_not_mem_qualifiedName (named.type? receiver className typed) isName

mutual

theorem Term.callSites_singleLined (named : around.Named) : (term : Term) → term.Printable →
    SingleLinedSites (term.callSites around)
  | .int _, _ => singleLinedSites_nil
  | .string text, _ => stringCallSites_singleLined text
  | .constant _, _ => singleLinedSites_nil
  | .var _, _ => singleLinedSites_nil
  | .item _ index, printable => by
      rw [Term.Printable] at printable
      exact Expression.callSites_singleLined named index printable.2
  | .paren inner, printable => by
      rw [Term.Printable] at printable
      exact Expression.callSites_singleLined named inner printable
  | .unary _ operand, printable => by
      rw [Term.Printable] at printable
      exact operand.callSites_singleLined named printable
  | .call call, printable => by
      rw [Term.Printable] at printable
      exact call.callSites_singleLined named printable

theorem Expression.callSites_singleLined (named : around.Named) : (elements : List Element) →
    Expression.Printable elements → SingleLinedSites (Expression.callSites around elements)
  | [.term last], printable => by
      rw [Expression.Printable] at printable
      have alone : Expression.callSites around [.term last] = last.callSites around := by
        simp [Expression.callSites, Expression.operationsCallSites]
      rw [alone]
      exact last.callSites_singleLined named printable
  | .term first :: .op op :: .term second :: rest, printable => by
      rw [Expression.Printable] at printable
      have later := Expression.callSites_singleLined named (.term second :: rest) printable.2
      rw [Expression.callSites] at later
      rw [Expression.callSites, Expression.operationsCallSites, singleLinedSites_append,
        singleLinedSites_append]
      exact ⟨first.callSites_singleLined named printable.1, later, op.callSites_singleLined⟩

theorem Call.callSites_singleLined (named : around.Named) : (call : Call) → call.Printable →
    SingleLinedSites (call.callSites around)
  | .mk receiver name arguments, printable => by
      obtain ⟨isReceiver, isName, printableArguments⟩ := by simpa [Call.Printable] using printable
      rw [Call.callSites, singleLinedSites_append]
      exact ⟨Call.argumentsCallSites_singleLined named arguments printableArguments,
        named.site_singleLined isName isReceiver arguments.length⟩

theorem Call.argumentsCallSites_singleLined (named : around.Named) :
    (arguments : List (List Element)) → Call.ArgumentsPrintable arguments →
    SingleLinedSites (Call.argumentsCallSites around arguments)
  | [], _ => singleLinedSites_nil
  | first :: rest, printable => by
      rw [Call.ArgumentsPrintable] at printable
      rw [Call.argumentsCallSites, singleLinedSites_append]
      exact ⟨Expression.callSites_singleLined named first printable.1,
        Call.argumentsCallSites_singleLined named rest printable.2⟩

end

namespace Statement

mutual

theorem callSites_singleLined (named : around.Named) : (statement : Statement) →
    statement.Printable → SingleLinedSites (statement.callSites around)
  | .let _ none value, printable => by
      rw [Printable] at printable
      exact Expression.callSites_singleLined named value printable.2.2
  | .let _ (some index) value, printable => by
      rw [Printable] at printable
      rw [callSites, singleLinedSites_append]
      exact ⟨Expression.callSites_singleLined named index (printable.2.1 index rfl),
        Expression.callSites_singleLined named value printable.2.2⟩
  | .if condition thenBranch elseBranch, printable => by
      rw [Printable] at printable
      rw [callSites, singleLinedSites_append, singleLinedSites_append]
      exact ⟨⟨Expression.callSites_singleLined named condition printable.1,
        callSitesAll_singleLined named thenBranch printable.2.1⟩,
        callSitesAll_singleLined named elseBranch printable.2.2⟩
  | .while condition body, printable => by
      rw [Printable] at printable
      rw [callSites, singleLinedSites_append]
      exact ⟨Expression.callSites_singleLined named condition printable.1,
        callSitesAll_singleLined named body printable.2⟩
  | .do call, printable => by
      rw [Printable] at printable
      exact call.callSites_singleLined named printable
  | .return none, _ => singleLinedSites_nil
  | .return (some value), printable => by
      rw [Printable] at printable
      exact Expression.callSites_singleLined named value (printable value rfl)

theorem callSitesAll_singleLined (named : around.Named) : (statements : List Statement) →
    AllPrintable statements → SingleLinedSites (callSitesAll around statements)
  | [], _ => singleLinedSites_nil
  | first :: rest, printable => by
      rw [AllPrintable] at printable
      rw [callSitesAll, singleLinedSites_append]
      exact ⟨first.callSites_singleLined named printable.1,
        callSitesAll_singleLined named rest printable.2⟩

end

end Statement

end

theorem type_printable_of_locate? {declarations : List Declaration}
    (printable : ∀ declaration ∈ declarations, declaration.type.Printable) {name : String}
    {binding : Binding} (located : locate? declarations name = some binding) :
    binding.type.Printable := by
  obtain ⟨before, declaration, after, rfl, -, -, rfl⟩ := locate?_eq_some_iff.mp located
  exact printable declaration (by simp)

theorem Class.Printable.types {cls : Class} (printable : cls.Printable) :
    ∀ declaration ∈ cls.declarations, declaration.type.Printable := by
  intro declaration membership
  obtain ⟨dec, inClass, declared⟩ := List.mem_flatMap.mp membership
  obtain ⟨name, -, rfl⟩ := List.mem_map.mp declared
  exact (printable.2.1 dec inClass).1

theorem Subroutine.Printable.types {subroutine : Subroutine} (printable : subroutine.Printable) :
    ∀ declaration ∈ subroutine.declarations, declaration.type.Printable := by
  obtain ⟨-, -, printableParameters, printableLocals, -⟩ := printable
  intro declaration membership
  rcases List.mem_append.mp membership with given | declared
  · obtain ⟨parameter, inList, rfl⟩ := List.mem_map.mp given
    exact (printableParameters parameter inList).1
  · obtain ⟨dec, inList, declared⟩ := List.mem_flatMap.mp declared
    obtain ⟨name, -, rfl⟩ := List.mem_map.mp declared
    exact (printableLocals dec inList).1

theorem Class.surroundings_named {cls : Class} (printable : cls.Printable)
    {subroutine : Subroutine} (membership : subroutine ∈ cls.subroutines) :
    (cls.surroundings subroutine).Named where
  className := printable.1
  type? name className typed := by
    obtain ⟨binding, located, isObject⟩ := Option.map_eq_some_iff.mp typed
    have typePrintable : binding.type.Printable := by
      rw [Class.locate?] at located
      cases own : ClassLang.locate? subroutine.declarations name with
      | some found =>
          rw [own] at located
          cases located
          exact type_printable_of_locate? (printable.2.2 subroutine membership).types own
      | none =>
          rw [own] at located
          exact type_printable_of_locate? printable.types located
    rw [isObject] at typePrintable
    exact typePrintable

theorem Class.callSites_singleLined {cls : Class} (printable : cls.Printable) :
    SingleLinedSites cls.callSites := by
  intro site membership
  obtain ⟨subroutine, inClass, inSubroutine⟩ := List.mem_flatMap.mp membership
  rcases List.mem_append.mp inSubroutine with onEntry | inBody
  · exact subroutine.kind.callSites_singleLined site onEntry
  · obtain ⟨-, -, -, -, printableBody⟩ := printable.2.2 subroutine inClass
    exact Statement.callSitesAll_singleLined (Class.surroundings_named printable inClass)
      subroutine.body printableBody site inBody

theorem Class.code_singleLined {cls : Class} (printable : cls.Printable)
    {signatures : SignatureTable} {code : List Instruction}
    (generated : cls.code signatures = .ok code) : SingleLined code := by
  intro instruction membership name mentioned
  rcases Class.name_of_mem_code generated membership mentioned with
    ⟨role, number, rfl⟩ | ⟨site, inClass, rfl⟩ | own
  · exact newline_not_mem_labelName role number
  · exact Class.callSites_singleLined printable site inClass
  · obtain ⟨subroutine, inClass, rfl⟩ := List.mem_map.mp own
    exact newline_not_mem_qualifiedName printable.1 (printable.2.2 subroutine inClass).2.1

theorem Build.compileSource_singleLined {source : String} {code : List Instruction}
    (compiled : Build.compileSource source = .ok code) : SingleLined code := by
  rw [Build.compileSource] at compiled
  obtain ⟨cls, parsed, compiled⟩ := bind_eq_ok_iff.mp compiled
  obtain ⟨known, -, generated⟩ := bind_eq_ok_iff.mp compiled
  exact Class.code_singleLined (Class.printable_of_parse (Halt.onError_eq_ok_iff.mp parsed)) generated

/-- The text of a program determines the program if no name in it holds a newline: there is one
line for each instruction, ended by a newline, and different programs have different texts. The
code of a source is always such a program. -/
theorem Vm.render_determines_code :
    (∀ first second, SingleLined first → SingleLined second → render first = render second →
      first = second) ∧
    (∀ code, SingleLined code →
      (render code).toList.splitOn '\n' = code.map (·.text.toList) ++ [[]]) ∧
    ∀ source code, Build.compileSource source = .ok code → SingleLined code :=
  ⟨fun _ _ => render_inj, fun _ => splitOn_render, fun _ _ => Build.compileSource_singleLined⟩

/-- Names that look like other instructions, or like a shorter name and a number. -/
def lookalikes : List Instruction :=
  [.function "push constant" 18446744073709551615, .label "a 1", .goto "label a 1",
    .call "a 1" 1, .call "" 11, .push .constant 4294967295, .return]

theorem lookalikes_determined :
    (SingleLined lookalikes ∧
      (∀ code, SingleLined code → render code = render lookalikes → code = lookalikes) ∧
      (render lookalikes).toList.splitOn '\n' = lookalikes.map (·.text.toList) ++ [[]]) ∧
    Build.compileSource Build.room.text = .ok Build.roomCode ∧ SingleLined Build.roomCode := by
  have single : SingleLined lookalikes := by
    simp [SingleLined, lookalikes, Instruction.name?]
  have compiled : Build.compileSource Build.room.text = .ok Build.roomCode := by
    rw [Build.compileSource, Build.parse_room]
    rfl
  obtain ⟨determined, lines, fromSource⟩ := Vm.render_determines_code
  exact ⟨⟨single, fun code singleCode => determined code lookalikes singleCode single,
    lines lookalikes single⟩, compiled, fromSource _ _ compiled⟩

end ClassLang
