import ClassLang.Proofs.Lexing
import ClassLang.Proofs.Recognition
import ClassLang.Tree.Printer

/-!
The text of a class spells the class, if the class is printable, and every class that comes from
a text is printable. So printing what was read and reading it again changes nothing.
-/

namespace ClassLang

variable {α : Type} {spelled : List Token → α → Prop} {print : α → String}

/-! The ends of the pieces of a text. -/

theorem ReadsAs.spaced {text : String} {tokens : List Token} (reads : ReadsAs text tokens) :
    ClosedAs (text ++ " ") tokens :=
  (reads.append_marks " " (by decide) (by decide)).as (List.append_nil tokens)

theorem ReadsAs.ended {text : String} {tokens : List Token} (reads : ReadsAs text tokens) :
    ClosedAs (text ++ ";\n") (tokens ++ [.symbol .semicolon]) :=
  reads.append_marks ";\n" (by decide) (by decide)

/-- The parenthesis before a block. -/
theorem ReadsAs.opensBlock {text : String} {tokens : List Token} (reads : ReadsAs text tokens) :
    ClosedAs (text ++ ") \x7b\n") (tokens ++ [.symbol .rightParen, .symbol .leftBrace]) :=
  reads.append_marks ") \x7b\n" (by decide) (by decide)

theorem closed_brace : ClosedAs "\x7d\n" [.symbol .rightBrace] :=
  closed_marks (by decide)

/-! Lists. -/

theorem separated_readable : (values : List α) → values ≠ [] →
    (∀ value ∈ values, ∃ tokens, spelled tokens value ∧ ReadsAs (print value) tokens) →
    ∃ tokens, Separated spelled tokens values ∧
      ReadsAs (", ".intercalate (values.map print)) tokens
  | [], nonempty, _ => absurd rfl nonempty
  | [value], _, readable => by
      obtain ⟨tokens, spelledValue, reads⟩ := readable value (by simp)
      exact ⟨tokens, .one spelledValue, by simpa using reads⟩
  | first :: second :: rest, _, readable => by
      obtain ⟨firstTokens, spelledFirst, readsFirst⟩ := readable first (by simp)
      obtain ⟨restTokens, separated, readsRest⟩ := separated_readable (second :: rest) (by simp)
        fun value membership => readable value (List.mem_cons_of_mem _ membership)
      refine ⟨_, .more spelledFirst separated, ?_⟩
      rw [List.map_cons, List.map_cons, String.intercalate_cons_cons]
      have comma : ClosedAs (print first ++ ", ") (firstTokens ++ [.symbol .comma]) :=
        readsFirst.append_marks ", " (by decide) (by decide)
      simpa using comma.append_reads readsRest

theorem listed_readable (values : List α)
    (readable : ∀ value ∈ values, ∃ tokens, spelled tokens value ∧ ReadsAs (print value) tokens) :
    ∃ tokens, Listed spelled tokens values ∧
      ReadsAs (", ".intercalate (values.map print)) tokens := by
  by_cases empty : values = []
  · subst empty
    exact ⟨[], .none, closed_empty.reads⟩
  · obtain ⟨tokens, separated, reads⟩ := separated_readable values empty readable
    exact ⟨tokens, .some separated, reads⟩

theorem sequence_readable (values : List α)
    (readable : ∀ value ∈ values, ∃ tokens, spelled tokens value ∧
      ClosedAs (print value) tokens) :
    ∃ tokens, Sequence spelled tokens values ∧
      ClosedAs (String.join (values.map print)) tokens := by
  induction values with
  | nil => exact ⟨[], .nil, closed_empty⟩
  | cons first rest inductionHypothesis =>
      obtain ⟨firstTokens, spelledFirst, closedFirst⟩ := readable first (by simp)
      obtain ⟨restTokens, sequence, closedRest⟩ := inductionHypothesis
        fun value membership => readable value (List.mem_cons_of_mem _ membership)
      refine ⟨_, .cons spelledFirst sequence, ?_⟩
      rw [List.map_cons, String.join_cons]
      exact closedFirst.append closedRest

/-! Terms, calls and expressions. -/

theorem Call.printArguments_eq_map (arguments : List (List Element)) :
    Call.printArguments arguments = arguments.map Expression.print := by
  induction arguments with
  | nil => rfl
  | cons argument rest inductionHypothesis =>
      simp [Call.printArguments, inductionHypothesis, Expression.print]

theorem Expression.print_operation (first : Term) (op : BinaryOp) {rest : List Element}
    (nonempty : rest ≠ []) :
    Expression.print (.term first :: .op op :: rest) =
      first.print ++ " " ++ (op.symbol.char.toString ++ " " ++ Expression.print rest) := by
  obtain ⟨second, others, rfl⟩ := List.exists_cons_of_ne_nil nonempty
  simp [Expression.print, Element.prints, Element.print, String.intercalate_cons_cons]

mutual

theorem Term.readable : (term : Term) → term.Printable →
    ∃ tokens, Term.Spelled tokens term ∧ ReadsAs term.print tokens
  | .int value, _ => ⟨_, .int value, reads_number value⟩
  | .string text, printable => by
      rw [Term.Printable] at printable
      exact ⟨_, .string text, printable.closed.reads⟩
  | .constant value, _ => ⟨_, .constant value, Keyword.reads (.constant value)⟩
  | .var name, printable => by
      rw [Term.Printable] at printable
      exact ⟨_, .var name, printable.reads⟩
  | .item array index, printable => by
      rw [Term.Printable] at printable
      obtain ⟨tokens, spelled, reads⟩ := Expression.readable index printable.2
      have opened : ClosedAs (array ++ "[") [.identifier array, .symbol .leftBracket] :=
        printable.1.reads.append_marks "[" (by decide) (by decide)
      have closed := (opened.append_reads reads).append_marks "]" (by decide) (by decide)
      exact ⟨_, .item array spelled, closed.reads⟩
  | .paren inner, printable => by
      rw [Term.Printable] at printable
      obtain ⟨tokens, spelled, reads⟩ := Expression.readable inner printable
      have opened : ClosedAs "(" [.symbol .leftParen] := closed_marks (by decide)
      have closed := (opened.append_reads reads).append_marks ")" (by decide) (by decide)
      exact ⟨_, .paren spelled, closed.reads⟩
  | .unary op operand, printable => by
      rw [Term.Printable] at printable
      obtain ⟨tokens, spelled, reads⟩ := operand.readable printable
      have opened : ClosedAs op.symbol.char.toString [.symbol op.symbol] := by
        cases op <;> exact closed_marks (by decide)
      exact ⟨_, .unary op spelled, opened.append_reads reads⟩
  | .call call, printable => by
      rw [Term.Printable] at printable
      obtain ⟨tokens, spelled, reads⟩ := call.readable printable
      exact ⟨tokens, .call spelled, reads⟩

theorem Expression.readable : (elements : List Element) → Expression.Printable elements →
    ∃ tokens, Expression.Spelled tokens elements ∧ ReadsAs (Expression.print elements) tokens
  | [.term last], printable => by
      rw [Expression.Printable] at printable
      obtain ⟨tokens, spelled, reads⟩ := last.readable printable
      refine ⟨tokens, .term spelled, ?_⟩
      simpa [Expression.print, Element.prints, Element.print] using reads
  | .term first :: .op op :: rest, printable => by
      rw [Expression.Printable] at printable
      have nonempty : rest ≠ [] := by
        rintro rfl
        simp [Expression.Printable] at printable
      obtain ⟨firstTokens, spelledFirst, readsFirst⟩ := first.readable printable.1
      obtain ⟨restTokens, spelledRest, readsRest⟩ := Expression.readable rest printable.2
      refine ⟨_, .operation op spelledFirst spelledRest, ?_⟩
      rw [Expression.print_operation first op nonempty]
      exact readsFirst.spaced.append_reads (op.closed.append_reads readsRest)
  | [], printable => by simp [Expression.Printable] at printable
  | .op _ :: _, printable => by simp [Expression.Printable] at printable
  | .term _ :: .term _ :: _, printable => by simp [Expression.Printable] at printable

theorem Call.readable : (call : Call) → call.Printable →
    ∃ tokens, Call.Spelled tokens call ∧ ReadsAs call.print tokens
  | .mk receiver name arguments, printable => by
      rw [Call.Printable] at printable
      obtain ⟨namedReceiver, named, argumentsPrintable⟩ := printable
      obtain ⟨tokens, listed, reads⟩ := listed_readable arguments
        (Call.arguments_readable arguments argumentsPrintable)
      rw [← Call.printArguments_eq_map] at reads
      have opened : ClosedAs (name ++ "(") [.identifier name, .symbol .leftParen] :=
        named.reads.append_marks "(" (by decide) (by decide)
      cases receiver with
      | none =>
          have closed : ClosedAs _ (_ ++ [.symbol .rightParen]) :=
            (opened.append_reads reads).append_marks ")" (by decide) (by decide)
          refine ⟨_, .own name listed, ?_⟩
          simpa [Call.print] using closed.reads
      | some receiver =>
          have qualified : ClosedAs (receiver ++ ".") [.identifier receiver, .symbol .dot] :=
            (namedReceiver receiver rfl).reads.append_marks "." (by decide) (by decide)
          have closed : ClosedAs _ (_ ++ [.symbol .rightParen]) :=
            ((qualified.append opened).append_reads reads).append_marks ")" (by decide)
              (by decide)
          refine ⟨_, .on receiver name listed, ?_⟩
          rw [Call.print]
          simpa [String.append_assoc] using closed.reads

theorem Call.arguments_readable : (arguments : List (List Element)) →
    Call.ArgumentsPrintable arguments → ∀ argument ∈ arguments,
    ∃ tokens, Expression.Spelled tokens argument ∧ ReadsAs (Expression.print argument) tokens
  | [], _ => by simp
  | first :: rest, printable => by
      rw [Call.ArgumentsPrintable] at printable
      have readableFirst := Expression.readable first printable.1
      intro argument membership
      rcases List.mem_cons.mp membership with rfl | later
      · exact readableFirst
      · exact Call.arguments_readable rest printable.2 argument later

end

/-! Statements. -/

theorem closed_indent (depth : Nat) : ClosedAs (indent depth) [] := by
  have chars : (indent depth).toList = List.replicate (4 * depth) ' ' := by simp [indent]
  have allMarks : (indent depth).toList.all isMark = true := by
    have blank : isMark ' ' = true := by decide
    simp [chars, blank]
  have noMarks : marks (indent depth) = [] := by
    have noSymbol : Symbol.ofChar? ' ' = none := by decide
    simp [marks, chars, noSymbol]
  exact (closed_marks allMarks).as noMarks

namespace Statement

mutual

theorem readable (depth : Nat) : (statement : Statement) → statement.Printable →
    ∃ tokens, Spelled tokens statement ∧ ClosedAs (statement.print depth) tokens
  | .let name index value, printable => by
      rw [Printable] at printable
      obtain ⟨named, indexPrintable, valuePrintable⟩ := printable
      obtain ⟨valueTokens, spelledValue, readsValue⟩ := Expression.readable value valuePrintable
      have word : ClosedAs (indent depth ++ "let ") [.keyword .let] :=
        (closed_indent depth).append (Keyword.closed .let)
      have target := word.append_reads named.reads
      cases index with
      | none =>
          have equal : ClosedAs _ (_ ++ [.symbol .equal]) :=
            target.append_marks " = " (by decide) (by decide)
          refine ⟨_, .let name spelledValue, ?_⟩
          simpa [Statement.print] using (equal.append_reads readsValue).ended
      | some inside =>
          obtain ⟨indexTokens, spelledIndex, readsIndex⟩ :=
            Expression.readable inside (indexPrintable inside rfl)
          have opened : ClosedAs _ (_ ++ [.symbol .leftBracket]) :=
            target.append_marks "[" (by decide) (by decide)
          have shut : ClosedAs _ (_ ++ [.symbol .rightBracket]) :=
            (opened.append_reads readsIndex).append_marks "]" (by decide) (by decide)
          have equal : ClosedAs " = " [.symbol .equal] := closed_marks (by decide)
          have closed := ((shut.append equal).append_reads readsValue).ended
          refine ⟨_, .letItem name spelledIndex spelledValue, ?_⟩
          simpa [Statement.print, String.append_assoc] using closed
  | .if condition thenBranch elseBranch, printable => by
      rw [Printable] at printable
      obtain ⟨testTokens, spelledTest, readsTest⟩ := Expression.readable condition printable.1
      obtain ⟨thenTokens, spelledThen, closedThen⟩ :=
        allReadable (depth + 1) thenBranch printable.2.1
      obtain ⟨elseTokens, spelledElse, closedElse⟩ :=
        allReadable (depth + 1) elseBranch printable.2.2
      have opened : ClosedAs "if (" [.keyword .if, .symbol .leftParen] :=
        (Keyword.reads .if).append_marks " (" (by decide) (by decide)
      have test := (((closed_indent depth).append opened).append_reads readsTest).opensBlock
      have branch := (test.append closedThen).append (closed_indent depth)
      cases elseBranch with
      | nil =>
          refine ⟨_, .if spelledTest spelledThen, ?_⟩
          simpa [Statement.print, String.append_assoc] using branch.append closed_brace
      | cons first rest =>
          have brace : ClosedAs "\x7d " [.symbol .rightBrace] := closed_marks (by decide)
          have middle : ClosedAs "\x7d else \x7b\n"
              [.symbol .rightBrace, .keyword .else, .symbol .leftBrace] :=
            (brace.append_reads (Keyword.reads .else)).append_marks " \x7b\n" (by decide)
              (by decide)
          have closed := (((branch.append middle).append closedElse).append
            (closed_indent depth)).append closed_brace
          refine ⟨_, .ifElse spelledTest spelledThen spelledElse, ?_⟩
          simpa [Statement.print, String.append_assoc] using closed
  | .while condition body, printable => by
      rw [Printable] at printable
      obtain ⟨testTokens, spelledTest, readsTest⟩ := Expression.readable condition printable.1
      obtain ⟨bodyTokens, spelledBody, closedBody⟩ := allReadable (depth + 1) body printable.2
      have opened : ClosedAs "while (" [.keyword .while, .symbol .leftParen] :=
        (Keyword.reads .while).append_marks " (" (by decide) (by decide)
      have test := (((closed_indent depth).append opened).append_reads readsTest).opensBlock
      have closed := ((test.append closedBody).append (closed_indent depth)).append closed_brace
      refine ⟨_, .while spelledTest spelledBody, ?_⟩
      simpa [Statement.print, String.append_assoc] using closed
  | .do call, printable => by
      rw [Printable] at printable
      obtain ⟨tokens, spelled, reads⟩ := call.readable printable
      have word : ClosedAs (indent depth ++ "do ") [.keyword .do] :=
        (closed_indent depth).append (Keyword.closed .do)
      exact ⟨_, .do spelled, (word.append_reads reads).ended⟩
  | .return none, _ => by
      have closed := ((closed_indent depth).append_reads (Keyword.reads .return)).ended
      refine ⟨_, .return, ?_⟩
      simpa [Statement.print, Keyword.word] using closed
  | .return (some value), printable => by
      rw [Printable] at printable
      obtain ⟨tokens, spelled, reads⟩ := Expression.readable value (printable value rfl)
      have word := ((closed_indent depth).append_reads (Keyword.reads .return)).spaced
      have closed := (word.append_reads reads).ended
      refine ⟨_, .returnValue spelled, ?_⟩
      simpa [Statement.print, String.append_assoc, Keyword.word, -String.reduceAppend] using closed

theorem allReadable (depth : Nat) : (statements : List Statement) → AllPrintable statements →
    ∃ tokens, Sequence Spelled tokens statements ∧ ClosedAs (printAll depth statements) tokens
  | [], _ => ⟨[], .nil, closed_empty⟩
  | first :: rest, printable => by
      rw [AllPrintable] at printable
      obtain ⟨firstTokens, spelledFirst, closedFirst⟩ := readable depth first printable.1
      obtain ⟨restTokens, spelledRest, closedRest⟩ := allReadable depth rest printable.2
      exact ⟨_, .cons spelledFirst spelledRest, closedFirst.append closedRest⟩

end

end Statement

/-! Declarations. -/

theorem DataType.readable {type : DataType} (printable : type.Printable) :
    ReadsAs type.word [type.token] := by
  cases type with
  | primitive primitive => exact Keyword.reads (.primitive primitive)
  | object className => exact IsName.reads printable

theorem ReturnType.readable {type : ReturnType} (printable : type.Printable) :
    ReadsAs type.word [type.token] := by
  cases type with
  | void => exact Keyword.reads .void
  | value type => exact DataType.readable printable

theorem names_readable {names : List String} (printable : NamesPrintable names) :
    ∃ tokens, Separated SpelledName tokens names ∧
      ClosedAs (printNames names) (tokens ++ [.symbol .semicolon]) := by
  have each : ∀ name ∈ names, ∃ tokens, SpelledName tokens name ∧ ReadsAs (id name) tokens :=
    fun name membership => ⟨_, rfl, (printable.2 name membership).reads⟩
  obtain ⟨tokens, separated, reads⟩ := separated_readable names printable.1 each
  rw [List.map_id] at reads
  exact ⟨tokens, separated, reads.ended⟩

theorem MemberDec.readable {dec : MemberDec} (printable : dec.Printable) :
    ∃ tokens, MemberDec.Spelled tokens dec ∧ ClosedAs dec.print tokens := by
  obtain ⟨tokens, separated, closedNames⟩ := names_readable printable.2
  have kind : ClosedAs (indent 1 ++ (dec.kind.word ++ " ")) [.keyword (.member dec.kind)] :=
    (closed_indent 1).append (Keyword.closed (.member dec.kind))
  have typed := (kind.append_reads (DataType.readable printable.1)).spaced
  refine ⟨_, .mk dec.kind dec.type separated, ?_⟩
  simpa [MemberDec.print, String.append_assoc] using typed.append closedNames

theorem LocalDec.readable {dec : LocalDec} (printable : dec.Printable) :
    ∃ tokens, LocalDec.Spelled tokens dec ∧ ClosedAs dec.print tokens := by
  obtain ⟨tokens, separated, closedNames⟩ := names_readable printable.2
  have word : ClosedAs (indent 2 ++ "var ") [.keyword .var] :=
    (closed_indent 2).append (Keyword.closed .var)
  have typed := (word.append_reads (DataType.readable printable.1)).spaced
  refine ⟨_, .mk dec.type separated, ?_⟩
  simpa [LocalDec.print, String.append_assoc] using typed.append closedNames

theorem Parameter.readable {parameter : Parameter} (printable : parameter.Printable) :
    ∃ tokens, Parameter.Spelled tokens parameter ∧ ReadsAs parameter.print tokens := by
  exact ⟨_, rfl, (DataType.readable printable.1).spaced.append_reads printable.2.reads⟩

theorem Subroutine.readable {subroutine : Subroutine} (printable : subroutine.Printable) :
    ∃ tokens, Subroutine.Spelled tokens subroutine ∧ ClosedAs subroutine.print tokens := by
  obtain ⟨typePrintable, named, parametersPrintable, localsPrintable, bodyPrintable⟩ := printable
  obtain ⟨parameterTokens, listed, readsParameters⟩ := listed_readable subroutine.parameters
    fun parameter membership => Parameter.readable (parametersPrintable parameter membership)
  obtain ⟨localTokens, spelledLocals, closedLocals⟩ := sequence_readable subroutine.locals
    fun dec membership => LocalDec.readable (localsPrintable dec membership)
  obtain ⟨bodyTokens, spelledBody, closedBody⟩ :=
    Statement.allReadable 2 subroutine.body bodyPrintable
  have kind := (closed_indent 1).append (Keyword.closed (.subroutine subroutine.kind))
  have typed := (kind.append_reads (ReturnType.readable typePrintable)).spaced
  have opened : ClosedAs _ (_ ++ [.symbol .leftParen]) :=
    (typed.append_reads named.reads).append_marks "(" (by decide) (by decide)
  have headed := (opened.append_reads readsParameters).opensBlock
  have closed := (((headed.append closedLocals).append closedBody).append (closed_indent 1)).append
    closed_brace
  refine ⟨_, .mk subroutine.kind subroutine.returnType subroutine.name listed spelledLocals
    spelledBody, ?_⟩
  simpa [Subroutine.print, String.append_assoc, Keyword.word] using closed

theorem Class.readable {cls : Class} (printable : cls.Printable) :
    ∃ tokens, Class.Spelled tokens cls ∧ ClosedAs cls.print tokens := by
  obtain ⟨named, membersPrintable, subroutinesPrintable⟩ := printable
  obtain ⟨memberTokens, spelledMembers, closedMembers⟩ := sequence_readable cls.members
    fun dec membership => MemberDec.readable (membersPrintable dec membership)
  have separate : ∀ subroutine ∈ cls.subroutines, ∃ tokens,
      Subroutine.Spelled tokens subroutine ∧ ClosedAs ("\n" ++ subroutine.print) tokens := by
    intro subroutine membership
    obtain ⟨tokens, spelled, closed⟩ :=
      Subroutine.readable (subroutinesPrintable subroutine membership)
    have line : ClosedAs "\n" [] := closed_marks (by decide)
    exact ⟨_, spelled, line.append closed⟩
  obtain ⟨subroutineTokens, spelledSubroutines, closedSubroutines⟩ :=
    sequence_readable cls.subroutines separate
  have headed : ClosedAs _ (_ ++ [.symbol .leftBrace]) :=
    ((Keyword.closed .cls).append_reads named.reads).append_marks " \x7b\n" (by decide) (by decide)
  have closed := ((headed.append closedMembers).append closedSubroutines).append closed_brace
  refine ⟨_, .mk cls.name spelledMembers spelledSubroutines, ?_⟩
  simpa [Class.print, String.append_assoc, Keyword.word] using closed

/-! What valid tokens spell is printable. -/

/-- All tokens are valid. -/
def Valid (tokens : List Token) : Prop :=
  ∀ token ∈ tokens, token.Valid

@[simp] theorem valid_nil : Valid [] := by simp [Valid]

@[simp] theorem valid_cons {token : Token} {rest : List Token} :
    Valid (token :: rest) ↔ token.Valid ∧ Valid rest := by
  simp [Valid]

@[simp] theorem valid_append {first second : List Token} :
    Valid (first ++ second) ↔ Valid first ∧ Valid second := by
  simp [Valid, or_imp, forall_and]

@[simp] theorem valid_identifier {name : String} : (Token.identifier name).Valid ↔ IsName name :=
  Iff.rfl

theorem Sequence.forall_of_valid {property : α → Prop}
    (each : ∀ tokens value, spelled tokens value → Valid tokens → property value)
    {tokens : List Token} {values : List α} (sequence : Sequence spelled tokens values)
    (valid : Valid tokens) : ∀ value ∈ values, property value := by
  induction sequence with
  | nil => simp
  | cons spelledFirst _ inductionHypothesis =>
      rw [valid_append] at valid
      simp only [List.forall_mem_cons]
      exact ⟨each _ _ spelledFirst valid.1, inductionHypothesis valid.2⟩

theorem Separated.forall_of_valid {property : α → Prop}
    (each : ∀ tokens value, spelled tokens value → Valid tokens → property value)
    {tokens : List Token} {values : List α} (separated : Separated spelled tokens values)
    (valid : Valid tokens) : values ≠ [] ∧ ∀ value ∈ values, property value := by
  induction separated with
  | one spelledOnly => simpa using each _ _ spelledOnly valid
  | more spelledFirst _ inductionHypothesis =>
      rw [valid_append, valid_cons] at valid
      simp only [List.forall_mem_cons]
      exact ⟨by simp, each _ _ spelledFirst valid.1, (inductionHypothesis valid.2.2).2⟩

mutual

theorem Term.printable_of_spelled : (term : Term) → {tokens : List Token} →
    Term.Spelled tokens term → Valid tokens → term.Printable
  | _, _, .int _, _ => by simp [Term.Printable]
  | _, _, .string _, valid => by
      rw [Term.Printable]
      exact (valid_cons.mp valid).1
  | _, _, .constant _, _ => by simp [Term.Printable]
  | _, _, .var _, valid => by
      rw [Term.Printable]
      simpa using valid
  | .item array index, _, .item _ spelled, valid => by
      simp only [List.cons_append, valid_cons, valid_append, valid_identifier] at valid
      rw [Term.Printable]
      exact ⟨valid.1, Expression.printable_of_spelled index spelled valid.2.2.1⟩
  | .paren inner, _, .paren spelled, valid => by
      simp only [List.cons_append, valid_cons, valid_append] at valid
      rw [Term.Printable]
      exact Expression.printable_of_spelled inner spelled valid.2.1
  | .unary _ operand, _, .unary _ spelled, valid => by
      rw [Term.Printable]
      exact operand.printable_of_spelled spelled (valid_cons.mp valid).2
  | .call call, _, .call spelled, valid => by
      rw [Term.Printable]
      exact call.printable_of_spelled spelled valid

theorem Expression.printable_of_spelled : (elements : List Element) → {tokens : List Token} →
    Expression.Spelled tokens elements → Valid tokens → Expression.Printable elements
  | [.term last], _, .term spelled, valid => by
      rw [Expression.Printable]
      exact last.printable_of_spelled spelled valid
  | .term first :: .op _ :: rest, _, .operation _ spelledFirst spelledRest, valid => by
      simp only [valid_append, valid_cons] at valid
      rw [Expression.Printable]
      exact ⟨first.printable_of_spelled spelledFirst valid.1,
        Expression.printable_of_spelled rest spelledRest valid.2.2⟩

theorem Call.printable_of_spelled : (call : Call) → {tokens : List Token} →
    Call.Spelled tokens call → Valid tokens → call.Printable
  | .mk none name arguments, _, .own _ listed, valid => by
      simp only [List.cons_append, valid_cons, valid_append, valid_identifier] at valid
      rw [Call.Printable]
      refine ⟨by simp, valid.1, ?_⟩
      cases listed with
      | none => simp [Call.ArgumentsPrintable]
      | some separated => exact Call.arguments_printable arguments separated valid.2.2.1
  | .mk (some receiver) name arguments, _, .on _ _ listed, valid => by
      simp only [List.cons_append, valid_cons, valid_append, valid_identifier] at valid
      rw [Call.Printable]
      refine ⟨by simpa using valid.1, valid.2.2.1, ?_⟩
      cases listed with
      | none => simp [Call.ArgumentsPrintable]
      | some separated => exact Call.arguments_printable arguments separated valid.2.2.2.2.1

theorem Call.arguments_printable : (arguments : List (List Element)) → {tokens : List Token} →
    Separated Expression.Spelled tokens arguments → Valid tokens →
    Call.ArgumentsPrintable arguments
  | [only], _, .one spelled, valid => by
      simpa [Call.ArgumentsPrintable] using Expression.printable_of_spelled only spelled valid
  | first :: rest, _, .more spelledFirst separated, valid => by
      simp only [valid_append, valid_cons] at valid
      rw [Call.ArgumentsPrintable]
      exact ⟨Expression.printable_of_spelled first spelledFirst valid.1,
        Call.arguments_printable rest separated valid.2.2⟩

end

namespace Statement

mutual

theorem printable_of_spelled : (statement : Statement) → {tokens : List Token} →
    Spelled tokens statement → Valid tokens → statement.Printable
  | .let name none value, _, .let _ spelled, valid => by
      simp only [List.cons_append, valid_cons, valid_append, valid_identifier] at valid
      rw [Printable]
      exact ⟨valid.2.1, by simp, Expression.printable_of_spelled value spelled valid.2.2.2.1⟩
  | .let name (some index) value, _, .letItem _ spelledIndex spelledValue, valid => by
      simp only [List.cons_append, List.append_assoc, valid_cons, valid_append,
        valid_identifier] at valid
      obtain ⟨-, named, -, validIndex, -, -, validValue, -⟩ := valid
      rw [Printable]
      exact ⟨named, by simpa using Expression.printable_of_spelled index spelledIndex validIndex,
        Expression.printable_of_spelled value spelledValue validValue⟩
  | .if condition thenBranch [], _, .if spelledTest spelledThen, valid => by
      simp only [List.cons_append, List.append_assoc, valid_cons, valid_append] at valid
      obtain ⟨-, -, validTest, -, -, validThen, -⟩ := valid
      rw [Printable]
      exact ⟨Expression.printable_of_spelled condition spelledTest validTest,
        allPrintable_of_spelled thenBranch spelledThen validThen, by simp [AllPrintable]⟩
  | .if condition thenBranch elseBranch, _, .ifElse spelledTest spelledThen spelledElse,
      valid => by
      simp only [List.cons_append, List.append_assoc, valid_cons, valid_append] at valid
      obtain ⟨-, -, validTest, -, -, validThen, -, -, -, validElse, -⟩ := valid
      rw [Printable]
      exact ⟨Expression.printable_of_spelled condition spelledTest validTest,
        allPrintable_of_spelled thenBranch spelledThen validThen,
        allPrintable_of_spelled elseBranch spelledElse validElse⟩
  | .while condition body, _, .while spelledTest spelledBody, valid => by
      simp only [List.cons_append, List.append_assoc, valid_cons, valid_append] at valid
      obtain ⟨-, -, validTest, -, -, validBody, -⟩ := valid
      rw [Printable]
      exact ⟨Expression.printable_of_spelled condition spelledTest validTest,
        allPrintable_of_spelled body spelledBody validBody⟩
  | .do call, _, .do spelled, valid => by
      simp only [List.cons_append, valid_cons, valid_append] at valid
      rw [Printable]
      exact call.printable_of_spelled spelled valid.2.1
  | .return none, _, .return, _ => by simp [Printable]
  | .return (some value), _, .returnValue spelled, valid => by
      simp only [List.cons_append, valid_cons, valid_append] at valid
      rw [Printable]
      simpa using Expression.printable_of_spelled value spelled valid.2.1

theorem allPrintable_of_spelled : (statements : List Statement) → {tokens : List Token} →
    Sequence Spelled tokens statements → Valid tokens → AllPrintable statements
  | [], _, _, _ => by simp [AllPrintable]
  | first :: rest, _, .cons spelledFirst sequence, valid => by
      rw [valid_append] at valid
      rw [AllPrintable]
      exact ⟨first.printable_of_spelled spelledFirst valid.1,
        allPrintable_of_spelled rest sequence valid.2⟩

end

end Statement

theorem DataType.printable_of_valid {type : DataType} (valid : type.token.Valid) :
    type.Printable := by
  cases type with
  | primitive primitive => trivial
  | object className => exact valid

theorem ReturnType.printable_of_valid {type : ReturnType} (valid : type.token.Valid) :
    type.Printable := by
  cases type with
  | void => trivial
  | value type => exact DataType.printable_of_valid valid

theorem names_printable_of_spelled {tokens : List Token} {names : List String}
    (separated : Separated SpelledName tokens names) (valid : Valid tokens) :
    NamesPrintable names := by
  refine separated.forall_of_valid ?_ valid
  rintro _ name rfl validName
  simpa using validName

theorem MemberDec.printable_of_spelled (tokens : List Token) (dec : MemberDec)
    (spelled : MemberDec.Spelled tokens dec) (valid : Valid tokens) : dec.Printable := by
  obtain ⟨kind, type, separated⟩ := spelled
  simp only [List.cons_append, valid_cons, valid_append] at valid
  exact ⟨DataType.printable_of_valid valid.2.1, names_printable_of_spelled separated valid.2.2.1⟩

theorem LocalDec.printable_of_spelled (tokens : List Token) (dec : LocalDec)
    (spelled : LocalDec.Spelled tokens dec) (valid : Valid tokens) : dec.Printable := by
  obtain ⟨type, separated⟩ := spelled
  simp only [List.cons_append, valid_cons, valid_append] at valid
  exact ⟨DataType.printable_of_valid valid.2.1, names_printable_of_spelled separated valid.2.2.1⟩

theorem Parameter.printable_of_spelled (tokens : List Token) (parameter : Parameter)
    (spelled : Parameter.Spelled tokens parameter) (valid : Valid tokens) :
    parameter.Printable := by
  rw [spelled] at valid
  simp only [valid_cons, valid_identifier] at valid
  exact ⟨DataType.printable_of_valid valid.1, valid.2.1⟩

theorem Subroutine.printable_of_spelled (tokens : List Token) (subroutine : Subroutine)
    (spelled : Subroutine.Spelled tokens subroutine) (valid : Valid tokens) :
    subroutine.Printable := by
  obtain ⟨kind, returnType, name, listed, spelledLocals, spelledBody⟩ := spelled
  simp only [List.cons_append, List.append_assoc, valid_cons, valid_append,
    valid_identifier] at valid
  obtain ⟨-, validType, named, -, validParameters, -, -, validLocals, validBody, -⟩ := valid
  refine ⟨ReturnType.printable_of_valid validType, named, ?_,
    spelledLocals.forall_of_valid LocalDec.printable_of_spelled validLocals,
    Statement.allPrintable_of_spelled _ spelledBody validBody⟩
  cases listed with
  | none => simp
  | some separated =>
      exact (separated.forall_of_valid Parameter.printable_of_spelled validParameters).2

theorem Class.printable_of_spelled {tokens : List Token} {cls : Class}
    (spelled : Class.Spelled tokens cls) (valid : Valid tokens) : cls.Printable := by
  obtain ⟨name, spelledMembers, spelledSubroutines⟩ := spelled
  simp only [List.cons_append, List.append_assoc, valid_cons, valid_append,
    valid_identifier] at valid
  obtain ⟨-, named, -, validMembers, validSubroutines, -⟩ := valid
  exact ⟨named, spelledMembers.forall_of_valid MemberDec.printable_of_spelled validMembers,
    spelledSubroutines.forall_of_valid Subroutine.printable_of_spelled validSubroutines⟩

/-! Both ways. -/

theorem Class.parse_eq_ok_iff {source : String} {cls : Class} :
    Class.parse source = .ok cls ↔ Class.Spelled (Token.tokenize source) cls := by
  rw [Class.parse, ← Class.accepted_iff_spelled]
  cases Class.ofTokens (Token.tokenize source) <;> simp [Except.mapError]

theorem Class.parse_print {cls : Class} (printable : cls.Printable) :
    Class.parse cls.print = .ok cls := by
  obtain ⟨tokens, spelled, closed⟩ := Class.readable printable
  rw [Class.parse_eq_ok_iff, closed.tokenize]
  exact spelled

theorem Class.printable_of_parse {source : String} {cls : Class}
    (parsed : Class.parse source = .ok cls) : cls.Printable :=
  Class.printable_of_spelled (Class.parse_eq_ok_iff.mp parsed) (Token.tokenize_valid source)

/-- The text of a class gives the class back exactly if the class is printable, and these are the
classes that some text spells. So a class that was read can be printed and read again. -/
theorem Class.parse_print_iff_printable (cls : Class) :
    (cls.Printable ↔ Class.parse cls.print = .ok cls) ∧
    (cls.Printable ↔ ∃ source, Class.parse source = .ok cls) ∧
    ∀ source, Class.parse source = .ok cls → Class.parse cls.print = .ok cls :=
  ⟨⟨Class.parse_print, Class.printable_of_parse⟩,
    ⟨fun printable => ⟨cls.print, Class.parse_print printable⟩,
      fun ⟨_, parsed⟩ => Class.printable_of_parse parsed⟩,
    fun _ parsed => Class.parse_print (Class.printable_of_parse parsed)⟩

end ClassLang
