import ClassLang.Proofs.Productions

/-!
The grammar accepts exactly the tokens that spell a class, and gives the class that they spell.

What a production takes is a spelling. The other way round, a production takes a spelling if
what follows could not belong to it: a name must not be followed by an opening bracket, an
expression not by an operator, and an `if` not by `else`.
-/

namespace ClassLang

open Grammar

variable {α κ : Type} {bound : Nat}

namespace Grammar

section

variable {size : List Token → Nat}

/-- Off fewer than so many tokens, the production takes only spellings. -/
def SoundBelow (bound : Nat)
    (production : (tokens : List Token) → Except Failure (Parsed (size tokens) α))
    (spelled : List Token → α → Prop) : Prop :=
  ∀ ⦃tokens value rest⦄, tokens.length < bound → Takes production tokens value rest →
    ∃ front, tokens = front ++ rest ∧ spelled front value

/-- The production takes spellings of fewer than so many tokens, unless what follows goes on. -/
def CompleteBelow (bound : Nat)
    (production : (tokens : List Token) → Except Failure (Parsed (size tokens) α))
    (spelled : List Token → α → Prop) (continues : Token → Bool) : Prop :=
  ∀ ⦃tokens value rest⦄, tokens.length < bound → spelled tokens value → Stops continues rest →
    Takes production (tokens ++ rest) value rest

end

/-! Lists. -/

theorem many_sound {starts : Token → Bool} {item : Production α} {spelled : List Token → α → Prop}
    (itemSound : ∀ tokens value rest, ¬ Stops starts tokens → Takes item tokens value rest →
      ∃ front, tokens = front ++ rest ∧ spelled front value)
    {tokens rest : List Token} {values : List α}
    (taken : Takes (many starts item) tokens values rest) :
    ∃ front, tokens = front ++ rest ∧ Sequence spelled front values := by
  induction values generalizing tokens with
  | nil =>
      obtain ⟨-, rfl⟩ := takes_many_nil.mp taken
      exact ⟨[], rfl, .nil⟩
  | cons value others inductionHypothesis =>
      obtain ⟨started, middle, takenItem, takenOthers⟩ := takes_many_cons.mp taken
      obtain ⟨front, rfl, spelledItem⟩ := itemSound tokens value middle started takenItem
      obtain ⟨further, rfl, spelledOthers⟩ := inductionHypothesis takenOthers
      exact ⟨front ++ further, by simp, .cons spelledItem spelledOthers⟩

theorem many_complete {starts : Token → Bool} {item : Production α}
    {spelled : List Token → α → Prop}
    (itemComplete : ∀ tokens value, spelled tokens value → ∀ rest,
      ¬ Stops starts (tokens ++ rest) ∧ Takes item (tokens ++ rest) value rest)
    {tokens rest : List Token} {values : List α} (sequence : Sequence spelled tokens values)
    (stops : Stops starts rest) : Takes (many starts item) (tokens ++ rest) values rest := by
  induction sequence with
  | nil => exact takes_many_nil.mpr ⟨stops, rfl⟩
  | @cons firstTokens first otherTokens others spelledItem _ inductionHypothesis =>
      obtain ⟨started, taken⟩ := itemComplete _ _ spelledItem (otherTokens ++ rest)
      rw [List.append_assoc]
      exact takes_many_cons.mpr ⟨started, _, taken, inductionHypothesis⟩

section

variable {item : Production α} {spelled : List Token → α → Prop} {continues : Token → Bool}

theorem commas_sound (sound : SoundBelow bound item spelled) {tokens rest firstTokens : List Token}
    {first : α} {others : List α} (within : tokens.length < bound)
    (spelledFirst : spelled firstTokens first)
    (taken : Takes (many (· == .symbol .comma) (skipping item)) tokens others rest) :
    ∃ front, tokens = front ++ rest ∧
      Separated spelled (firstTokens ++ front) (first :: others) := by
  induction others generalizing tokens firstTokens first with
  | nil =>
      obtain ⟨-, rfl⟩ := takes_many_nil.mp taken
      exact ⟨[], rfl, by simpa using .one spelledFirst⟩
  | cons next later inductionHypothesis =>
      obtain ⟨started, middle, takenNext, takenLater⟩ := takes_many_cons.mp taken
      obtain ⟨behind, rfl⟩ := not_stops_beq_iff.mp started
      rw [takes_skipping_cons] at takenNext
      have shorter := takenNext.shorter
      simp only [List.length_cons] at within
      obtain ⟨front, rfl, spelledNext⟩ := sound (by omega) takenNext
      obtain ⟨further, rfl, spelledLater⟩ :=
        inductionHypothesis (by omega) spelledNext takenLater
      exact ⟨.symbol .comma :: (front ++ further), by simp, .more spelledFirst spelledLater⟩

theorem commaSeparated_sound (sound : SoundBelow bound item spelled) :
    SoundBelow bound (commaSeparated item) (Separated spelled) := by
  intro tokens values rest within taken
  obtain ⟨first, middle, takenFirst, others, takenOthers, rfl⟩ := takes_commaSeparated.mp taken
  have shorter := takenFirst.shorter
  obtain ⟨front, rfl, spelledFirst⟩ := sound within takenFirst
  obtain ⟨further, rfl, separated⟩ := commas_sound sound (by omega) spelledFirst takenOthers
  exact ⟨front ++ further, by simp, separated⟩

theorem commaSeparated_complete (complete : CompleteBelow bound item spelled continues)
    (ended : continues (.symbol .comma) = false) {tokens rest : List Token} {values : List α}
    (within : tokens.length < bound) (separated : Separated spelled tokens values)
    (stops : Stops continues rest) (last : Stops (· == .symbol .comma) rest) :
    Takes (commaSeparated item) (tokens ++ rest) values rest := by
  induction separated with
  | one spelledItem =>
      refine takes_commaSeparated.mpr ⟨_, rest, complete within spelledItem stops, [], ?_, rfl⟩
      exact takes_many_nil.mpr ⟨last, rfl⟩
  | more spelledItem _ inductionHypothesis =>
      simp only [List.length_append, List.length_cons] at within
      obtain ⟨second, middle, takenSecond, others, takenOthers, rfl⟩ :=
        takes_commaSeparated.mp (inductionHypothesis (by omega))
      rw [List.append_assoc, List.cons_append]
      refine takes_commaSeparated.mpr ⟨_, _, complete (by omega) spelledItem (by simpa), _, ?_, rfl⟩
      exact takes_many_cons.mpr
        ⟨by simp, middle, takes_skipping_cons.mpr takenSecond, takenOthers⟩

end

/-! Terms, calls and expressions. -/

theorem operations_sound (sound : SoundBelow bound term Term.Spelled) : (found : List Element) →
    {tokens rest firstTokens : List Token} → {first : Term} → tokens.length < bound →
    Term.Spelled firstTokens first → Takes operations tokens found rest →
    ∃ front, tokens = front ++ rest ∧
      Expression.Spelled (firstTokens ++ front) (.term first :: found)
  | found, tokens, rest, firstTokens, first, within, spelledFirst, taken => by
      rcases takes_operations.mp taken with
        ⟨op, behind, rfl, operand, middle, takenOperand, others, takenOthers, rfl⟩ | ⟨-, rfl, rfl⟩
      · have shorter := takenOperand.shorter
        simp only [List.length_cons] at within
        obtain ⟨front, rfl, spelledOperand⟩ := sound (by omega) takenOperand
        obtain ⟨further, rfl, spelled⟩ :=
          operations_sound sound others (by omega) spelledOperand takenOthers
        exact ⟨.symbol op.symbol :: (front ++ further), by simp,
          .operation op spelledFirst spelled⟩
      · exact ⟨[], rfl, by simpa using .term spelledFirst⟩

theorem expression_sound (sound : SoundBelow bound term Term.Spelled) :
    SoundBelow bound expression Expression.Spelled := by
  intro tokens found rest within taken
  obtain ⟨first, middle, takenFirst, others, takenOthers, rfl⟩ := takes_expression.mp taken
  have shorter := takenFirst.shorter
  obtain ⟨front, rfl, spelledFirst⟩ := sound within takenFirst
  obtain ⟨further, rfl, spelled⟩ :=
    operations_sound sound others (by omega) spelledFirst takenOthers
  exact ⟨front ++ further, by simp, spelled⟩

theorem arguments_sound (sound : SoundBelow bound expression Expression.Spelled) :
    SoundBelow bound arguments (Listed Expression.Spelled) := by
  intro tokens found rest within taken
  rcases takes_arguments.mp taken with ⟨-, rfl, rfl⟩ | ⟨-, takenSome⟩
  · exact ⟨[], rfl, .none⟩
  · obtain ⟨front, rfl, separated⟩ := commaSeparated_sound sound within takenSome
    exact ⟨front, rfl, .some separated⟩

theorem call_sound (sound : SoundBelow bound expression Expression.Spelled) {first : String}
    {tokens rest : List Token} {found : Call} (within : tokens.length < bound)
    (taken : Takes (call first) tokens found rest) :
    ∃ front, tokens = front ++ rest ∧ Call.Spelled (.identifier first :: front) found := by
  obtain ⟨target, middle, takenTarget, behind, rfl, supplied, last, takenSupplied, rfl, rfl⟩ :=
    takes_call.mp taken
  rcases takes_callee.mp takenTarget with ⟨_, rfl, name, rfl, rfl⟩ | ⟨-, rfl, rfl⟩
  · simp only [List.length_cons] at within
    obtain ⟨front, rfl, spelled⟩ := arguments_sound sound (by omega) takenSupplied
    exact ⟨_, by simp, .on first name spelled⟩
  · simp only [List.length_cons] at within
    obtain ⟨front, rfl, spelled⟩ := arguments_sound sound (by omega) takenSupplied
    exact ⟨_, by simp, .own first spelled⟩

/-- Every production inside a term gets fewer tokens than the term. -/
theorem term_sound (bound : Nat) : SoundBelow bound term Term.Spelled := by
  induction bound with
  | zero =>
      intro tokens found rest within
      omega
  | succ bound inductionHypothesis =>
      intro tokens found rest within taken
      have inner := expression_sound inductionHypothesis
      cases takes_term.mp taken with
      | int => exact ⟨[_], rfl, .int _⟩
      | string => exact ⟨[_], rfl, .string _⟩
      | constant => exact ⟨[_], rfl, .constant _⟩
      | var => exact ⟨[_], rfl, .var _⟩
      | paren takenInner =>
          obtain ⟨front, rfl, spelled⟩ := inner (by simpa using within) takenInner
          exact ⟨_, by simp, .paren spelled⟩
      | unary op takenOperand =>
          obtain ⟨front, rfl, spelled⟩ :=
            inductionHypothesis (by simpa using within) takenOperand
          exact ⟨_, by simp, .unary op spelled⟩
      | item takenIndex =>
          simp only [List.length_cons] at within
          obtain ⟨front, rfl, spelled⟩ := inner (by omega) takenIndex
          exact ⟨_, by simp, .item _ spelled⟩
      | call opens takenCall =>
          obtain ⟨front, shape, spelled⟩ := call_sound inner (by simpa using within) takenCall
          exact ⟨_, by simp [shape], .call spelled⟩

/-- Behind an expression, the token belongs to it. -/
def continuesExpression (token : Token) : Bool :=
  continuesName token || isOperator token

theorem stops_of_continuesExpression {rest : List Token} (stops : Stops continuesExpression rest) :
    Stops continuesName rest ∧ Stops isOperator rest := by
  cases rest with
  | nil => simp
  | cons token behind => simpa [continuesExpression] using stops

theorem stops_operator (op : BinaryOp) (rest : List Token) :
    Stops continuesName (.symbol op.symbol :: rest) := by
  cases op <;> simp [BinaryOp.symbol, continuesName]

theorem expression_complete (complete : CompleteBelow bound term Term.Spelled continuesName) :
    CompleteBelow bound expression Expression.Spelled continuesExpression
  | tokens, elements, rest, within, spelled, stops => by
      cases spelled with
      | term spelledLast =>
          obtain ⟨nameStops, operatorStops⟩ := stops_of_continuesExpression stops
          exact takes_expression.mpr ⟨_, rest, complete within spelledLast nameStops, [],
            takes_operations.mpr (.inr ⟨operatorStops, rfl, rfl⟩), rfl⟩
      | operation op spelledFirst spelledRest =>
          simp only [List.length_append, List.length_cons] at within
          obtain ⟨second, middle, takenSecond, others, takenOthers, rfl⟩ :=
            takes_expression.mp (expression_complete complete (by omega) spelledRest stops)
          rw [List.append_assoc, List.cons_append]
          exact takes_expression.mpr ⟨_, _,
            complete (by omega) spelledFirst (stops_operator op _), _,
            takes_operations.mpr (.inl ⟨op, _, rfl, second, middle, takenSecond, others,
              takenOthers, rfl⟩), rfl⟩
termination_by _ elements => elements

/-- No expression starts with a closing parenthesis or a semicolon. -/
theorem stops_of_takes_expression {tokens rest : List Token} {found : Expression}
    (taken : Takes expression tokens found rest) {closing : Symbol}
    (closes : closing = .rightParen ∨ closing = .semicolon) :
    Stops (· == .symbol closing) tokens := by
  obtain ⟨first, middle, takenFirst, -⟩ := takes_expression.mp taken
  cases takes_term.mp takenFirst with
  | unary op => rcases closes with rfl | rfl <;> cases op <;> simp [UnaryOp.symbol]
  | _ => rcases closes with rfl | rfl <;> simp

theorem arguments_complete
    (complete : CompleteBelow bound expression Expression.Spelled continuesExpression)
    {tokens : List Token} {found : List Expression} (within : tokens.length < bound)
    (listed : Listed Expression.Spelled tokens found) (rest : List Token) :
    Takes arguments (tokens ++ .symbol .rightParen :: rest) found
      (.symbol .rightParen :: rest) := by
  cases listed with
  | none => exact takes_arguments.mpr (.inl ⟨⟨rest, rfl⟩, rfl, rfl⟩)
  | some separated =>
      have taken : Takes (commaSeparated expression) (tokens ++ .symbol .rightParen :: rest) found
          (.symbol .rightParen :: rest) :=
        commaSeparated_complete complete rfl within separated (stops_cons.mpr rfl)
          (stops_cons.mpr rfl)
      obtain ⟨first, middle, takenFirst, -⟩ := takes_commaSeparated.mp taken
      exact takes_arguments.mpr (.inr ⟨stops_of_takes_expression takenFirst (.inl rfl), taken⟩)

theorem call_complete
    (complete : CompleteBelow bound expression Expression.Spelled continuesExpression)
    {tokens : List Token} {found : Call} (within : tokens.length < bound + 1)
    (spelled : Call.Spelled tokens found) :
    ∃ first opening behind, tokens = .identifier first :: .symbol opening :: behind ∧
      (opening = .leftParen ∨ opening = .dot) ∧
      ∀ rest, Takes (call first) (.symbol opening :: behind ++ rest) found rest := by
  cases spelled with
  | own name listed =>
      simp only [List.cons_append, List.length_cons, List.length_append] at within
      exact ⟨name, .leftParen, _, rfl, .inl rfl, fun rest => takes_call.mpr ⟨_, _,
        takes_callee.mpr (.inr ⟨by simp, rfl, rfl⟩), _, by simp, _, _,
        arguments_complete complete (by omega) listed rest, rfl, rfl⟩⟩
  | on receiver name listed =>
      simp only [List.cons_append, List.length_cons, List.length_append] at within
      exact ⟨receiver, .dot, _, rfl, .inr rfl, fun rest => takes_call.mpr ⟨_, _,
        takes_callee.mpr (.inl ⟨_, rfl, name, rfl, rfl⟩), _, by simp, _, _,
        arguments_complete complete (by omega) listed rest, rfl, rfl⟩⟩

theorem term_complete (bound : Nat) : CompleteBelow bound term Term.Spelled continuesName := by
  induction bound with
  | zero =>
      intro tokens found rest within
      omega
  | succ bound inductionHypothesis =>
      intro tokens found rest within spelled stops
      have inner := expression_complete inductionHypothesis
      apply takes_term.mpr
      cases spelled with
      | int => exact .int
      | string => exact .string
      | constant => exact .constant
      | var => exact .var stops
      | item array spelledIndex =>
          simp only [List.cons_append, List.length_cons, List.length_append] at within
          simp only [List.cons_append, List.append_assoc, List.nil_append]
          exact .item (inner (by omega) spelledIndex (stops_cons.mpr rfl))
      | paren spelledInner =>
          simp only [List.cons_append, List.length_cons, List.length_append] at within
          simp only [List.cons_append, List.append_assoc, List.nil_append]
          exact .paren (inner (by omega) spelledInner (stops_cons.mpr rfl))
      | unary op spelledOperand =>
          exact .unary op (inductionHypothesis (by simpa using within) spelledOperand stops)
      | call spelledCall =>
          obtain ⟨first, opening, behind, rfl, opens, taken⟩ :=
            call_complete inner within spelledCall
          exact .call opens (taken rest)

theorem spelled_of_takes_expression {tokens rest : List Token} {found : Expression}
    (taken : Takes expression tokens found rest) :
    ∃ front, tokens = front ++ rest ∧ Expression.Spelled front found :=
  expression_sound (term_sound _) (Nat.lt_succ_self _) taken

theorem takes_expression_of_spelled {tokens : List Token} {found : Expression}
    (spelled : Expression.Spelled tokens found) {closing : Symbol}
    (closes : continuesExpression (.symbol closing) = false) (rest : List Token) :
    Takes expression (tokens ++ .symbol closing :: rest) found (.symbol closing :: rest) :=
  expression_complete (term_complete _) (Nat.lt_succ_self _) spelled (stops_cons.mpr closes)

theorem spelled_of_takes_call {tokens rest : List Token} {first : String} {found : Call}
    (taken : Takes (call first) tokens found rest) :
    ∃ front, tokens = front ++ rest ∧ Call.Spelled (.identifier first :: front) found :=
  call_sound (expression_sound (term_sound _)) (Nat.lt_succ_self _) taken

theorem takes_call_of_spelled {tokens : List Token} {found : Call}
    (spelled : Call.Spelled tokens found) :
    ∃ first behind, tokens = .identifier first :: behind ∧
      ∀ rest, Takes (call first) (behind ++ rest) found rest := by
  obtain ⟨first, opening, behind, rfl, -, taken⟩ :=
    call_complete (expression_complete (term_complete _)) (Nat.lt_succ_self _) spelled
  exact ⟨first, _, rfl, taken⟩

/-! Statements. -/

theorem spelled_of_takes_condition {tokens rest : List Token} {found : Expression}
    (taken : Takes condition tokens found rest) :
    ∃ front, tokens = .symbol .leftParen :: front ++ .symbol .rightParen :: rest ∧
      Expression.Spelled front found := by
  obtain ⟨behind, rfl, takenInside⟩ := takes_condition.mp taken
  obtain ⟨front, rfl, spelled⟩ := spelled_of_takes_expression takenInside
  exact ⟨front, rfl, spelled⟩

theorem takes_condition_of_spelled {tokens : List Token} {found : Expression}
    (spelled : Expression.Spelled tokens found) (rest : List Token) :
    Takes condition (.symbol .leftParen :: tokens ++ .symbol .rightParen :: rest) found rest :=
  takes_condition.mpr ⟨_, rfl, takes_expression_of_spelled spelled rfl rest⟩

theorem statements_sound (sound : SoundBelow bound statement Statement.Spelled) :
    SoundBelow bound statements (Sequence Statement.Spelled) := by
  intro tokens found rest within taken
  induction found generalizing tokens with
  | nil =>
      rcases takes_statements.mp taken with ⟨-, -, rfl⟩ | ⟨-, _, _, -, _, -, impossible⟩
      · exact ⟨[], rfl, .nil⟩
      · simp at impossible
  | cons first others inductionHypothesis =>
      rcases takes_statements.mp taken with
        ⟨-, impossible, -⟩ | ⟨-, _, middle, takenFirst, _, takenOthers, shape⟩
      · simp at impossible
      · cases shape
        have shorter := takenFirst.shorter
        obtain ⟨front, rfl, spelledFirst⟩ := sound within takenFirst
        obtain ⟨further, rfl, spelledOthers⟩ := inductionHypothesis (by omega) takenOthers
        exact ⟨front ++ further, by simp, .cons spelledFirst spelledOthers⟩

theorem block_sound (sound : SoundBelow bound statements (Sequence Statement.Spelled))
    {tokens rest : List Token} {found : List Statement} (within : tokens.length < bound)
    (taken : Takes block tokens found rest) :
    ∃ front, tokens = .symbol .leftBrace :: front ++ .symbol .rightBrace :: rest ∧
      Sequence Statement.Spelled front found := by
  obtain ⟨behind, rfl, takenInside⟩ := takes_block.mp taken
  simp only [List.length_cons] at within
  obtain ⟨front, rfl, spelled⟩ := sound (by omega) takenInside
  exact ⟨front, rfl, spelled⟩

theorem statement_sound (bound : Nat) : SoundBelow bound statement Statement.Spelled := by
  induction bound with
  | zero =>
      intro tokens found rest within
      omega
  | succ bound inductionHypothesis =>
      intro tokens found rest within taken
      have inner := statements_sound inductionHypothesis
      cases takes_statement.mp taken with
      | «let» takenIndex takenValue =>
          obtain ⟨front, rfl, spelledValue⟩ := spelled_of_takes_expression takenValue
          rcases takes_index.mp takenIndex with
            ⟨behind, rfl, inside, takenInside, rfl⟩ | ⟨-, rfl, rfl⟩
          · obtain ⟨indexFront, rfl, spelledIndex⟩ := spelled_of_takes_expression takenInside
            exact ⟨_, by simp, .letItem _ spelledIndex spelledValue⟩
          · exact ⟨_, by simp, .let _ spelledValue⟩
      | «if» takenTest takenThen takenElse =>
          obtain ⟨test, rfl, spelledTest⟩ := spelled_of_takes_condition takenTest
          simp only [List.cons_append, List.length_cons, List.length_append] at within
          obtain ⟨thenTokens, rfl, spelledThen⟩ := block_sound inner (by omega) takenThen
          simp only [List.cons_append, List.length_cons, List.length_append] at within
          rcases takes_alternative.mp takenElse with ⟨behind, rfl, takenBlock⟩ | ⟨-, rfl, rfl⟩
          · simp only [List.length_cons] at within
            obtain ⟨elseTokens, rfl, spelledElse⟩ := block_sound inner (by omega) takenBlock
            exact ⟨_, by simp, .ifElse spelledTest spelledThen spelledElse⟩
          · exact ⟨_, by simp, .if spelledTest spelledThen⟩
      | «while» takenTest takenBody =>
          obtain ⟨test, rfl, spelledTest⟩ := spelled_of_takes_condition takenTest
          simp only [List.cons_append, List.length_cons, List.length_append] at within
          obtain ⟨body, rfl, spelledBody⟩ := block_sound inner (by omega) takenBody
          exact ⟨_, by simp, .while spelledTest spelledBody⟩
      | «do» takenCall =>
          obtain ⟨front, rfl, spelled⟩ := spelled_of_takes_call takenCall
          exact ⟨_, by simp, .do spelled⟩
      | «return» takenValue =>
          rcases takes_returnValue.mp takenValue with ⟨rfl, rfl⟩ | ⟨-, value, takenSome, rfl⟩
          · exact ⟨_, by simp, .return⟩
          · obtain ⟨front, rfl, spelled⟩ := spelled_of_takes_expression takenSome
            exact ⟨_, by simp, .returnValue spelled⟩

/-- No statement starts with a closing brace, with `else` or with `var`. -/
theorem stops_of_takes_statement {tokens rest : List Token} {found : Statement}
    (taken : Takes statement tokens found rest) :
    Stops (· == .symbol .rightBrace) tokens ∧ Stops (· == .keyword .else) tokens ∧
      Stops (· == .keyword .var) tokens := by
  cases takes_statement.mp taken <;> simp

theorem stops_of_takes_statements {tokens rest : List Token} {found : List Statement}
    (taken : Takes statements tokens found rest) :
    Stops (· == .keyword .else) tokens ∧ Stops (· == .keyword .var) tokens := by
  rcases takes_statements.mp taken with ⟨⟨behind, rfl⟩, -⟩ | ⟨-, first, middle, takenFirst, -⟩
  · simp
  · exact (stops_of_takes_statement takenFirst).2

theorem statements_complete
    (complete : CompleteBelow bound statement Statement.Spelled (· == .keyword .else))
    {tokens : List Token} {found : List Statement} (within : tokens.length < bound)
    (sequence : Sequence Statement.Spelled tokens found) (rest : List Token) :
    Takes statements (tokens ++ .symbol .rightBrace :: rest) found
      (.symbol .rightBrace :: rest) := by
  induction found generalizing tokens with
  | nil =>
      cases sequence
      exact takes_statements.mpr (.inl ⟨⟨rest, rfl⟩, rfl, rfl⟩)
  | cons first others inductionHypothesis =>
      cases sequence with
      | cons spelledFirst spelledOthers =>
          simp only [List.length_append] at within
          have takenOthers := inductionHypothesis (by omega) spelledOthers
          have takenFirst := complete (by omega) spelledFirst
            (stops_of_takes_statements takenOthers).1
          rw [List.append_assoc]
          exact takes_statements.mpr (.inr ⟨(stops_of_takes_statement takenFirst).1, first, _,
            takenFirst, others, takenOthers, rfl⟩)

theorem block_complete
    (complete : CompleteBelow bound statement Statement.Spelled (· == .keyword .else))
    {tokens : List Token} {found : List Statement} (within : tokens.length < bound)
    (sequence : Sequence Statement.Spelled tokens found) (rest : List Token) :
    Takes block (.symbol .leftBrace :: tokens ++ .symbol .rightBrace :: rest) found rest :=
  takes_block.mpr ⟨_, rfl, statements_complete complete within sequence rest⟩

theorem statement_complete (bound : Nat) :
    CompleteBelow bound statement Statement.Spelled (· == .keyword .else) := by
  induction bound with
  | zero =>
      intro tokens found rest within
      omega
  | succ bound inductionHypothesis =>
      intro tokens found rest within spelled stops
      apply takes_statement.mpr
      cases spelled with
      | «let» name spelledValue =>
          simp only [List.cons_append, List.append_assoc, List.nil_append]
          exact .let (takes_index.mpr (.inr ⟨by simp, rfl, rfl⟩))
            (takes_expression_of_spelled spelledValue rfl rest)
      | letItem name spelledIndex spelledValue =>
          simp only [List.cons_append, List.append_assoc, List.nil_append]
          refine .let (takes_index.mpr (.inl ⟨_, rfl, _, ?_, rfl⟩))
            (takes_expression_of_spelled spelledValue rfl rest)
          exact takes_expression_of_spelled spelledIndex rfl _
      | «if» spelledTest spelledThen =>
          simp only [List.cons_append, List.length_cons, List.length_append] at within
          simp only [List.cons_append, List.append_assoc, List.nil_append]
          exact .if (takes_condition_of_spelled spelledTest _)
            (block_complete inductionHypothesis (by omega) spelledThen _)
            (takes_alternative.mpr (.inr ⟨stops, rfl, rfl⟩))
      | ifElse spelledTest spelledThen spelledElse =>
          simp only [List.cons_append, List.length_cons, List.length_append] at within
          simp only [List.cons_append, List.append_assoc, List.nil_append]
          refine .if (takes_condition_of_spelled spelledTest _)
            (block_complete inductionHypothesis (by omega) spelledThen _)
            (takes_alternative.mpr (.inl ⟨_, rfl, ?_⟩))
          exact block_complete inductionHypothesis (by omega) spelledElse rest
      | «while» spelledTest spelledBody =>
          simp only [List.cons_append, List.length_cons, List.length_append] at within
          simp only [List.cons_append, List.append_assoc, List.nil_append]
          exact .while (takes_condition_of_spelled spelledTest _)
            (block_complete inductionHypothesis (by omega) spelledBody rest)
      | «do» spelledCall =>
          obtain ⟨first, behind, rfl, taken⟩ := takes_call_of_spelled spelledCall
          simp only [List.cons_append, List.append_assoc, List.nil_append]
          exact .do (taken (.symbol .semicolon :: rest))
      | «return» => exact .return (takes_returnValue.mpr (.inl ⟨rfl, rfl⟩))
      | returnValue spelledValue =>
          have taken : Takes expression (_ ++ .symbol .semicolon :: rest) _ _ :=
            takes_expression_of_spelled spelledValue rfl rest
          simp only [List.cons_append, List.append_assoc, List.nil_append]
          exact .return (takes_returnValue.mpr
            (.inr ⟨stops_of_takes_expression taken (.inr rfl), _, taken, rfl⟩))

/-! Declarations. -/

theorem identifier_sound (bound : Nat) : SoundBelow bound identifier SpelledName := by
  intro tokens name rest _ taken
  exact ⟨[.identifier name], outcome_identifier.mp taken, rfl⟩

theorem identifier_complete (bound : Nat) :
    CompleteBelow bound identifier SpelledName fun _ => false := by
  rintro _ name rest _ rfl -
  exact outcome_identifier.mpr rfl

theorem parameter_sound (bound : Nat) : SoundBelow bound parameter Parameter.Spelled := by
  intro tokens found rest _ taken
  exact ⟨[_, _], outcome_parameter.mp taken, rfl⟩

theorem parameter_complete (bound : Nat) :
    CompleteBelow bound parameter Parameter.Spelled fun _ => false := by
  rintro _ found rest _ rfl -
  exact outcome_parameter.mpr rfl

theorem spelled_of_takes_nameList {tokens rest : List Token} {names : List String}
    (taken : Takes nameList tokens names rest) :
    ∃ front, tokens = front ++ .symbol .semicolon :: rest ∧ Separated SpelledName front names :=
  commaSeparated_sound (identifier_sound _) (Nat.lt_succ_self _) (takes_nameList.mp taken)

theorem takes_nameList_of_spelled {tokens : List Token} {names : List String}
    (separated : Separated SpelledName tokens names) (rest : List Token) :
    Takes nameList (tokens ++ .symbol .semicolon :: rest) names rest :=
  takes_nameList.mpr (commaSeparated_complete (identifier_complete _) rfl (Nat.lt_succ_self _)
    separated (stops_cons.mpr rfl) (stops_cons.mpr rfl))

theorem spelled_of_takes_parameters {tokens rest : List Token} {found : List Parameter}
    (taken : Takes parameters tokens found rest) :
    ∃ front, tokens = front ++ rest ∧ Listed Parameter.Spelled front found := by
  rcases takes_parameters.mp taken with ⟨-, rfl, rfl⟩ | ⟨-, takenSome⟩
  · exact ⟨[], rfl, .none⟩
  · obtain ⟨front, rfl, separated⟩ :=
      commaSeparated_sound (parameter_sound _) (Nat.lt_succ_self _) takenSome
    exact ⟨front, rfl, .some separated⟩

theorem takes_parameters_of_spelled {tokens : List Token} {found : List Parameter}
    (listed : Listed Parameter.Spelled tokens found) (rest : List Token) :
    Takes parameters (tokens ++ .symbol .rightParen :: rest) found
      (.symbol .rightParen :: rest) := by
  cases listed with
  | none => exact takes_parameters.mpr (.inl ⟨⟨rest, rfl⟩, rfl, rfl⟩)
  | some separated =>
      have taken : Takes (commaSeparated parameter) (tokens ++ .symbol .rightParen :: rest) found
          (.symbol .rightParen :: rest) :=
        commaSeparated_complete (parameter_complete _) rfl (Nat.lt_succ_self _) separated
          (stops_cons.mpr rfl) (stops_cons.mpr rfl)
      refine takes_parameters.mpr (.inr ⟨?_, taken⟩)
      obtain ⟨first, middle, takenFirst, -⟩ := takes_commaSeparated.mp taken
      rw [outcome_parameter.mp takenFirst]
      cases first.type <;> simp [DataType.token]

theorem spelled_of_takes_members {tokens rest : List Token} {found : List MemberDec}
    (taken : Takes (many startsMember memberDec) tokens found rest) :
    ∃ front, tokens = front ++ rest ∧ Sequence MemberDec.Spelled front found := by
  refine many_sound ?_ taken
  rintro tokens ⟨kind, type, names⟩ rest - takenDec
  obtain ⟨_, rfl, takenNames⟩ := takes_memberDec.mp takenDec
  obtain ⟨front, rfl, separated⟩ := spelled_of_takes_nameList takenNames
  exact ⟨_, by simp, .mk kind type separated⟩

theorem takes_members_of_spelled {tokens rest : List Token} {found : List MemberDec}
    (sequence : Sequence MemberDec.Spelled tokens found)
    (stops : Stops startsMember rest) :
    Takes (many startsMember memberDec) (tokens ++ rest) found rest := by
  refine many_complete ?_ sequence stops
  rintro _ _ ⟨kind, type, separated⟩ rest
  refine ⟨by simp [startsMember, memberKind?], takes_memberDec.mpr ⟨_, rfl, ?_⟩⟩
  simpa using takes_nameList_of_spelled separated rest

theorem spelled_of_takes_locals {tokens rest : List Token} {found : List LocalDec}
    (taken : Takes (many (· == .keyword .var) (skipping localDec)) tokens found rest) :
    ∃ front, tokens = front ++ rest ∧ Sequence LocalDec.Spelled front found := by
  refine many_sound ?_ taken
  rintro tokens ⟨type, names⟩ rest started takenDec
  obtain ⟨behind, rfl⟩ := not_stops_beq_iff.mp started
  obtain ⟨_, rfl, takenNames⟩ := takes_localDec.mp (takes_skipping_cons.mp takenDec)
  obtain ⟨front, rfl, separated⟩ := spelled_of_takes_nameList takenNames
  exact ⟨_, by simp, .mk type separated⟩

theorem takes_locals_of_spelled {tokens rest : List Token} {found : List LocalDec}
    (sequence : Sequence LocalDec.Spelled tokens found)
    (stops : Stops (· == .keyword .var) rest) :
    Takes (many (· == .keyword .var) (skipping localDec)) (tokens ++ rest) found rest := by
  refine many_complete ?_ sequence stops
  rintro _ _ ⟨type, separated⟩ rest
  refine ⟨by simp, takes_skipping_cons.mpr (takes_localDec.mpr ⟨_, rfl, ?_⟩)⟩
  simpa using takes_nameList_of_spelled separated rest

theorem spelled_of_takes_subroutines {tokens rest : List Token} {found : List Subroutine}
    (taken : Takes (many startsSubroutine subroutineDec) tokens found rest) :
    ∃ front, tokens = front ++ rest ∧ Sequence Subroutine.Spelled front found := by
  refine many_sound ?_ taken
  rintro tokens ⟨kind, returnType, name, parameters, locals, body⟩ rest - takenDec
  obtain ⟨_, rfl, _, takenParameters, takenBraces⟩ := takes_subroutineDec.mp takenDec
  obtain ⟨_, rfl, _, takenLocals, takenBody⟩ := takes_subroutineBody.mp takenBraces
  obtain ⟨bodyTokens, rfl, spelledBody⟩ :=
    statements_sound (statement_sound _) (Nat.lt_succ_self _) takenBody
  obtain ⟨localTokens, rfl, spelledLocals⟩ := spelled_of_takes_locals takenLocals
  obtain ⟨parameterTokens, rfl, listed⟩ := spelled_of_takes_parameters takenParameters
  exact ⟨_, by simp, .mk kind returnType name listed spelledLocals spelledBody⟩

theorem takes_subroutines_of_spelled {tokens rest : List Token} {found : List Subroutine}
    (sequence : Sequence Subroutine.Spelled tokens found)
    (stops : Stops startsSubroutine rest) :
    Takes (many startsSubroutine subroutineDec) (tokens ++ rest) found rest := by
  refine many_complete ?_ sequence stops
  rintro _ _ ⟨kind, returnType, name, listed, spelledLocals, spelledBody⟩ rest
  refine ⟨by simp [startsSubroutine, subroutineKind?], ?_⟩
  have takenBody := statements_complete (statement_complete _) (Nat.lt_succ_self _) spelledBody rest
  have takenLocals := takes_locals_of_spelled spelledLocals
    (stops_of_takes_statements takenBody).2
  exact takes_subroutineDec.mpr ⟨_, by simp, _, takes_parameters_of_spelled listed _,
    takes_subroutineBody.mpr ⟨_, rfl, _, takenLocals, takenBody⟩⟩

/-- Where subroutines are read, no member follows. -/
theorem stops_member_of_takes_subroutines {tokens rest : List Token} {found : List Subroutine}
    (taken : Takes (many startsSubroutine subroutineDec) tokens found
      (.symbol .rightBrace :: rest)) : Stops startsMember tokens := by
  cases found with
  | nil =>
      obtain ⟨-, rfl⟩ := takes_many_nil.mp taken
      exact stops_cons.mpr rfl
  | cons first others =>
      obtain ⟨-, middle, takenFirst, -⟩ := takes_many_cons.mp taken
      obtain ⟨behind, rfl, -⟩ := takes_subroutineDec.mp takenFirst
      exact stops_cons.mpr rfl

theorem spelled_of_takes_classDec {tokens rest : List Token} {cls : Class}
    (taken : Takes classDec tokens cls rest) :
    ∃ front, tokens = front ++ rest ∧ Class.Spelled front cls := by
  obtain ⟨name, members, subroutines⟩ := cls
  obtain ⟨_, rfl, _, takenMembers, takenSubroutines⟩ := takes_classDec.mp taken
  obtain ⟨subroutineTokens, rfl, spelledSubroutines⟩ :=
    spelled_of_takes_subroutines takenSubroutines
  obtain ⟨memberTokens, rfl, spelledMembers⟩ := spelled_of_takes_members takenMembers
  exact ⟨_, by simp, .mk name spelledMembers spelledSubroutines⟩

theorem takes_classDec_of_spelled {tokens : List Token} {cls : Class}
    (spelled : Class.Spelled tokens cls) (rest : List Token) :
    Takes classDec (tokens ++ rest) cls rest := by
  obtain ⟨name, spelledMembers, spelledSubroutines⟩ := spelled
  have takenSubroutines : Takes (many startsSubroutine subroutineDec)
      (_ ++ .symbol .rightBrace :: rest) _ (.symbol .rightBrace :: rest) :=
    takes_subroutines_of_spelled spelledSubroutines (stops_cons.mpr rfl)
  have stops : Stops startsMember (_ ++ .symbol .rightBrace :: rest) :=
    stops_member_of_takes_subroutines takenSubroutines
  exact takes_classDec.mpr ⟨_, by simp, _, takes_members_of_spelled spelledMembers stops,
    takenSubroutines⟩

end Grammar

theorem Class.accepted_iff_spelled {tokens : List Token} {cls : Class} :
    Class.ofTokens tokens = .ok cls ↔ Class.Spelled tokens cls := by
  rw [Class.ofTokens_eq_ok_iff]
  constructor
  · intro taken
    obtain ⟨front, rfl, spelled⟩ := spelled_of_takes_classDec taken
    simpa using spelled
  · intro spelled
    simpa using takes_classDec_of_spelled spelled []

/-- The tokens are accepted as a class exactly if they spell it, all of them, and they spell no
other class. -/
theorem Class.ofTokens_accepts_exactly_spelled (tokens : List Token) :
    (∀ cls, Class.ofTokens tokens = .ok cls ↔ Class.Spelled tokens cls) ∧
      ¬ ∃ first second, first ≠ second ∧ Class.Spelled tokens first ∧
        Class.Spelled tokens second := by
  refine ⟨fun cls => Class.accepted_iff_spelled, ?_⟩
  rintro ⟨first, second, different, spelledFirst, spelledSecond⟩
  have accepted := Class.accepted_iff_spelled.mpr spelledFirst
  rw [Class.accepted_iff_spelled.mpr spelledSecond] at accepted
  exact different (Except.ok.inj accepted).symm

end ClassLang
