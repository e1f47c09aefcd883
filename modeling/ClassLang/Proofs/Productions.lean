import ClassLang.Proofs.Results
import ClassLang.Proofs.Spelling
import ClassLang.Tree.Parser
import Mathlib.Tactic.Simproc.ExistsAndEq

/-!
What each production takes off the front of the tokens, in terms of the productions it uses.
-/

namespace ClassLang.Grammar

variable {α β κ : Type}

section

variable {bound other : Nat} {value : α} {rest : List Token}

theorem outcome_eq_ok_iff {result : Except Failure (Parsed bound α)} :
    outcome result = .ok (value, rest) ↔ ∃ shorter, result = .ok ⟨value, rest, shorter⟩ := by
  cases result with
  | error failure => simp [outcome, Except.map]
  | ok parsed =>
      obtain ⟨found, behind, shorter⟩ := parsed
      simp only [outcome, Except.map, Except.ok.injEq, Prod.mk.injEq, Parsed.mk.injEq]
      constructor
      · rintro ⟨rfl, rfl⟩
        exact ⟨shorter, rfl, rfl⟩
      · rintro ⟨-, equal⟩
        exact equal

@[simp] theorem outcome_ok (parsed : Parsed bound α) :
    outcome (.ok parsed) = .ok (parsed.value, parsed.rest) := rfl

@[simp] theorem outcome_error (failure : Failure) :
    outcome (.error failure : Except Failure (Parsed bound α)) = .error failure := rfl

/-- Productions one after the other. -/
theorem outcome_bind_eq_ok_iff {first : Except Failure (Parsed bound α)}
    {next : Parsed bound α → Except Failure (Parsed other β)} {result : β × List Token} :
    outcome (first >>= next) = .ok result ↔
      ∃ value rest, outcome first = .ok (value, rest) ∧
        ∃ shorter, outcome (next ⟨value, rest, shorter⟩) = .ok result := by
  cases first with
  | error failure => simp
  | ok parsed =>
      simp only [ok_bind, outcome_ok, Except.ok.injEq, Prod.mk.injEq]
      constructor
      · intro succeeded
        exact ⟨parsed.value, parsed.rest, ⟨rfl, rfl⟩, parsed.shorter, succeeded⟩
      · rintro ⟨_, _, ⟨rfl, rfl⟩, shorter, succeeded⟩
        exact succeeded

theorem outcome_bind_of {first : Except Failure (Parsed bound α)}
    {next : Parsed bound α → Except Failure (Parsed other β)} {result : β × List Token}
    (taken : outcome first = .ok (value, rest))
    (further : ∀ shorter, outcome (next ⟨value, rest, shorter⟩) = .ok result) :
    outcome (first >>= next) = .ok result := by
  obtain ⟨shorter, rfl⟩ := outcome_eq_ok_iff.mp taken
  exact further shorter

theorem outcome_pure_eq_ok_iff {parsed : Parsed bound α} {result : α × List Token} :
    outcome (pure parsed : Except Failure (Parsed bound α)) = .ok result ↔
      parsed.value = result.1 ∧ parsed.rest = result.2 := by
  simp [Prod.ext_iff]

/-- What was read leaves fewer tokens, which need not be said again. -/
theorem outcome_and_shorter {result : Except Failure (Parsed bound α)} {further : Prop} :
    outcome result = .ok (value, rest) ∧ rest.length < bound ∧ further ↔
      outcome result = .ok (value, rest) ∧ further := by
  constructor
  · rintro ⟨taken, -, holds⟩
    exact ⟨taken, holds⟩
  · rintro ⟨taken, holds⟩
    obtain ⟨shorter, -⟩ := outcome_eq_ok_iff.mp taken
    exact ⟨taken, shorter, holds⟩

end

/-- The production reads a value and leaves the rest. -/
def Takes {bound : List Token → Nat}
    (production : (tokens : List Token) → Except Failure (Parsed (bound tokens) α))
    (tokens : List Token) (value : α) (rest : List Token) : Prop :=
  outcome (production tokens) = .ok (value, rest)

theorem Takes.shorter {bound : List Token → Nat}
    {production : (tokens : List Token) → Except Failure (Parsed (bound tokens) α)}
    {tokens rest : List Token} {value : α} (taken : Takes production tokens value rest) :
    rest.length < bound tokens := by
  obtain ⟨shorter, -⟩ := outcome_eq_ok_iff.mp taken
  exact shorter

/-- No token that would go on comes first. -/
def Stops (continues : Token → Bool) (tokens : List Token) : Prop :=
  ∀ token ∈ tokens.head?, continues token = false

@[simp] theorem stops_nil (continues : Token → Bool) : Stops continues [] := by
  simp [Stops]

@[simp] theorem stops_cons {continues : Token → Bool} {token : Token} {rest : List Token} :
    Stops continues (token :: rest) ↔ continues token = false := by
  simp [Stops]

variable {tokens rest : List Token}

theorem stops_beq_iff {token : Token} :
    Stops (· == token) tokens ↔ ∀ rest, tokens ≠ token :: rest := by
  cases tokens with
  | nil => simp
  | cons found behind => simp

theorem not_stops_beq_iff {token : Token} :
    ¬ Stops (· == token) tokens ↔ ∃ rest, tokens = token :: rest := by
  simp [stops_beq_iff]

/-! Single tokens. -/

@[simp] theorem outcome_expect {expected : Token} {done : Unit} :
    outcome (expect expected tokens) = .ok (done, rest) ↔ tokens = expected :: rest := by
  cases tokens with
  | nil => simp [expect]
  | cons found behind =>
      by_cases equal : found = expected
      · simp [expect, equal]
      · simp [expect, equal]

@[simp] theorem outcome_expectSymbol {symbol : Symbol} {done : Unit} :
    outcome (expectSymbol symbol tokens) = .ok (done, rest) ↔ tokens = .symbol symbol :: rest :=
  outcome_expect

@[simp] theorem outcome_expectKeyword {keyword : Keyword} {done : Unit} :
    outcome (expectKeyword keyword tokens) = .ok (done, rest) ↔
      tokens = .keyword keyword :: rest :=
  outcome_expect

theorem outcome_expectKeyword_cons {keyword : Keyword} :
    outcome (expectKeyword keyword (.keyword keyword :: rest)) = .ok ((), rest) :=
  outcome_expectKeyword.mpr rfl

@[simp] theorem outcome_kindToken {expected : Expectation} {kind? : Token → Option κ} {kind : κ} :
    outcome (kindToken expected kind? tokens) = .ok (kind, rest) ↔
      ∃ token, kind? token = some kind ∧ tokens = token :: rest := by
  cases tokens with
  | nil => simp [kindToken]
  | cons token behind => cases found : kind? token <;> simp [kindToken, found]

@[simp] theorem outcome_identifier {name : String} :
    outcome (identifier tokens) = .ok (name, rest) ↔ tokens = .identifier name :: rest := by
  unfold identifier
  split <;> simp_all

@[simp] theorem outcome_dataType {type : DataType} :
    outcome (dataType tokens) = .ok (type, rest) ↔ tokens = type.token :: rest := by
  unfold dataType
  cases type <;> split <;> simp_all [DataType.token]

/-! Lists. -/

@[simp] theorem takes_skipping_cons {item : Production α} {token : Token} {behind : List Token}
    {value : α} :
    Takes (skipping item) (token :: behind) value rest ↔ Takes item behind value rest := by
  rw [Takes, skipping]
  simp only [outcome_bind_eq_ok_iff, outcome_pure_eq_ok_iff, exists_prop, outcome_and_shorter,
    exists_eq_right_right]
  simp [Takes]

section

variable {starts : Token → Bool} {item : Production α}

theorem not_stops_iff : ¬ Stops starts tokens ↔ tokens.head?.any starts = true := by
  cases tokens <;> simp

/-- Items read before come first. -/
theorem outcome_manyFrom {bound : Nat} (values : List α) (tokens : List Token)
    (within : tokens.length < bound) :
    outcome (manyFrom starts item values tokens within) =
      (outcome (many starts item tokens)).map fun found => (values.reverse ++ found.1, found.2) := by
  rw [many, manyFrom, manyFrom]
  by_cases started : tokens.head?.any starts = true
  · rw [if_pos started, if_pos started]
    cases item tokens with
    | error failure => rfl
    | ok parsed =>
        have shorter := parsed.shorter
        simp only [ok_bind]
        rw [outcome_manyFrom (parsed.value :: values) parsed.rest,
          outcome_manyFrom [parsed.value] parsed.rest]
        cases outcome (many starts item parsed.rest) <;> simp [Except.map]
  · rw [if_neg started, if_neg started]
    simp [Except.map]
termination_by tokens.length

theorem takes_many {found : List α} :
    Takes (many starts item) tokens found rest ↔
      (¬ Stops starts tokens ∧ ∃ value middle, Takes item tokens value middle ∧
        ∃ others, Takes (many starts item) middle others rest ∧ value :: others = found) ∨
      Stops starts tokens ∧ [] = found ∧ tokens = rest := by
  rw [Takes, many, manyFrom]
  by_cases stops : Stops starts tokens
  · rw [if_neg (not_stops_iff.not.mp (not_not.mpr stops))]
    simp [stops]
  · rw [if_pos (not_stops_iff.mp stops)]
    simp only [outcome_bind_eq_ok_iff, outcome_manyFrom, map_eq_ok_iff, exists_prop,
      outcome_and_shorter]
    simp [stops, Takes, Prod.ext_iff]

theorem takes_many_nil :
    Takes (many starts item) tokens [] rest ↔ Stops starts tokens ∧ tokens = rest := by
  rw [takes_many]
  simp

theorem takes_many_cons {value : α} {others : List α} :
    Takes (many starts item) tokens (value :: others) rest ↔
      ¬ Stops starts tokens ∧ ∃ middle, Takes item tokens value middle ∧
        Takes (many starts item) middle others rest := by
  rw [takes_many]
  simp

end

theorem takes_commaSeparated {item : Production α} {found : List α} :
    Takes (commaSeparated item) tokens found rest ↔
      ∃ first middle, Takes item tokens first middle ∧
        ∃ others, Takes (many (· == .symbol .comma) (skipping item)) middle others rest ∧
          first :: others = found := by
  rw [Takes, commaSeparated]
  simp only [outcome_bind_eq_ok_iff, outcome_pure_eq_ok_iff, exists_prop, outcome_and_shorter,
    exists_eq_right_right]
  rfl

/-! Terms, calls and expressions. -/

/-- Behind an identifier, the token starts an index, a list of arguments or a qualified name. -/
def continuesName : Token → Bool
  | .symbol .leftBracket => true
  | .symbol .leftParen => true
  | .symbol .dot => true
  | _ => false

def isOperator (token : Token) : Bool :=
  (operator? token).isSome

theorem takes_expression {elements : Expression} :
    Takes expression tokens elements rest ↔
      ∃ first middle, Takes term tokens first middle ∧
        ∃ others, Takes operations middle others rest ∧ .term first :: others = elements := by
  rw [Takes, expression]
  simp only [outcome_bind_eq_ok_iff, outcome_pure_eq_ok_iff, exists_prop, outcome_and_shorter,
    exists_eq_right_right]
  rfl

theorem operator?_eq_some_iff {token : Token} {op : BinaryOp} :
    operator? token = some op ↔ token = .symbol op.symbol := by
  cases token with
  | symbol symbol =>
      simpa [operator?] using BinaryOp.ofSymbol?_eq_some_iff.trans eq_comm
  | _ => simp [operator?]

theorem takes_operations {elements : List Element} :
    Takes operations tokens elements rest ↔
      (∃ op behind, tokens = .symbol (BinaryOp.symbol op) :: behind ∧
        ∃ operand middle, Takes term behind operand middle ∧
          ∃ others, Takes operations middle others rest ∧
            .op op :: .term operand :: others = elements) ∨
      Stops isOperator tokens ∧ [] = elements ∧ tokens = rest := by
  rw [Takes, operations.eq_def]
  cases tokens with
  | nil => simp
  | cons token behind =>
      cases found : operator? token with
      | none =>
          have other : ∀ op : BinaryOp, token ≠ .symbol op.symbol := fun op spelled => by
            rw [operator?_eq_some_iff.mpr spelled] at found
            contradiction
          simp [isOperator, found, other]
      | some op =>
          obtain rfl := operator?_eq_some_iff.mp found
          have unique : ∀ other : BinaryOp, op.symbol = other.symbol ↔ other = op := by
            cases op <;> rintro (_ | _) <;> simp [BinaryOp.symbol]
          simp only [found, outcome_bind_eq_ok_iff, outcome_pure_eq_ok_iff, exists_prop,
            outcome_and_shorter, exists_eq_right_right]
          simp [isOperator, found, unique, Takes, and_assoc]

theorem takes_callee {first : String} {target : Option String × String} :
    Takes (callee first) tokens target rest ↔
      (∃ behind, tokens = .symbol .dot :: behind ∧
        ∃ name, behind = .identifier name :: rest ∧ (some first, name) = target) ∨
      Stops (· == .symbol .dot) tokens ∧ (none, first) = target ∧ tokens = rest := by
  unfold Takes callee
  split
  · simp only [outcome_bind_eq_ok_iff, outcome_pure_eq_ok_iff, exists_prop, outcome_and_shorter,
      exists_eq_right_right]
    simp
  · next other =>
    have other : ∀ behind, tokens ≠ .symbol .dot :: behind := other
    simp [stops_beq_iff.mpr other, other, Prod.ext_iff]

theorem takes_call {first : String} {called : Call} :
    Takes (call first) tokens called rest ↔
      ∃ target middle, Takes (callee first) tokens target middle ∧
        ∃ behind, middle = .symbol .leftParen :: behind ∧
          ∃ found last, Takes arguments behind found last ∧ last = .symbol .rightParen :: rest ∧
            .mk target.1 target.2 found = called := by
  rw [Takes, call]
  simp only [outcome_bind_eq_ok_iff, outcome_pure_eq_ok_iff, exists_prop, outcome_and_shorter,
    exists_eq_right_right]
  simp only [outcome_expectSymbol, exists_const]
  rfl

theorem takes_moreArguments {tokens : List Token} {found : List Expression} :
    Takes moreArguments tokens found rest ↔
      Takes (many (· == .symbol .comma) (skipping expression)) tokens found rest := by
  induction size : tokens.length using Nat.strongRecOn generalizing tokens found with
  | ind size inductionHypothesis =>
      subst size
      rw [takes_many, Takes, moreArguments.eq_def]
      split
      · next behind =>
        simp only [outcome_bind_eq_ok_iff, outcome_pure_eq_ok_iff, exists_prop,
          outcome_and_shorter, exists_eq_right_right]
        have later : ∀ {next : Expression} {middle : List Token} {others : List Expression},
            Takes expression behind next middle → (Takes moreArguments middle others rest ↔
              Takes (many (· == .symbol .comma) (skipping expression)) middle others rest) := by
          intro next middle others takenNext
          have shorter := takenNext.shorter
          exact inductionHypothesis middle.length (by simp; omega) rfl
        constructor
        · rintro ⟨next, middle, takenNext, others, takenOthers, rfl⟩
          exact .inl ⟨by simp, next, middle, takes_skipping_cons.mpr takenNext, others,
            (later takenNext).mp takenOthers, rfl⟩
        · rintro (⟨-, next, middle, takenNext, others, takenOthers, rfl⟩ | ⟨stops, -⟩)
          · rw [takes_skipping_cons] at takenNext
            exact ⟨next, middle, takenNext, others, (later takenNext).mpr takenOthers, rfl⟩
          · simp at stops
      · next other =>
        have other : ∀ behind, tokens ≠ .symbol .comma :: behind := other
        simp [stops_beq_iff.mpr other]

theorem takes_arguments {found : List Expression} :
    Takes arguments tokens found rest ↔
      (∃ behind, tokens = .symbol .rightParen :: behind) ∧ [] = found ∧ tokens = rest ∨
      Stops (· == .symbol .rightParen) tokens ∧
        Takes (commaSeparated expression) tokens found rest := by
  rw [Takes, arguments.eq_def, takes_commaSeparated]
  split
  · simp
  · next other =>
    have other : ∀ behind, tokens ≠ .symbol .rightParen :: behind := other
    simp only [outcome_bind_eq_ok_iff, outcome_pure_eq_ok_iff, exists_prop, outcome_and_shorter,
      exists_eq_right_right]
    simp only [← takes_moreArguments]
    simp [stops_beq_iff.mpr other, other, Takes]

/-- The ways to read a term. An identifier alone is a variable only if what follows it cannot
belong to it. -/
inductive TermRead : List Token → Term → List Token → Prop where
  | int {value rest} : TermRead (.int value :: rest) (.int value) rest
  | string {text rest} : TermRead (.string text :: rest) (.string text) rest
  | constant {value rest} :
      TermRead (.keyword (.constant value) :: rest) (.constant value) rest
  | paren {tokens inner rest} : Takes expression tokens inner (.symbol .rightParen :: rest) →
      TermRead (.symbol .leftParen :: tokens) (.paren inner) rest
  | unary (op : UnaryOp) {tokens operand rest} : Takes term tokens operand rest →
      TermRead (.symbol op.symbol :: tokens) (.unary op operand) rest
  | item {array tokens index rest} :
      Takes expression tokens index (.symbol .rightBracket :: rest) →
      TermRead (.identifier array :: .symbol .leftBracket :: tokens) (.item array index) rest
  | call {first opening tokens called rest} : opening = .leftParen ∨ opening = .dot →
      Takes (call first) (.symbol opening :: tokens) called rest →
      TermRead (.identifier first :: .symbol opening :: tokens) (.call called) rest
  | var {name rest} : Stops continuesName rest →
      TermRead (.identifier name :: rest) (.var name) rest

theorem takes_term {found : Term} :
    Takes term tokens found rest ↔ TermRead tokens found rest := by
  constructor
  · intro taken
    rw [Takes, term.eq_def] at taken
    split at taken
    · cases taken
      exact .int
    · cases taken
      exact .string
    · cases taken
      exact .constant
    · simp only [outcome_bind_eq_ok_iff, outcome_pure_eq_ok_iff, outcome_expectSymbol] at taken
      obtain ⟨inner, _, takenInner, _, _, last, rfl, _, rfl, rfl⟩ := taken
      exact .paren takenInner
    · simp only [outcome_bind_eq_ok_iff, outcome_pure_eq_ok_iff] at taken
      obtain ⟨operand, last, takenOperand, _, rfl, rfl⟩ := taken
      exact .unary .negate takenOperand
    · simp only [outcome_bind_eq_ok_iff, outcome_pure_eq_ok_iff] at taken
      obtain ⟨operand, last, takenOperand, _, rfl, rfl⟩ := taken
      exact .unary .not takenOperand
    · simp only [outcome_bind_eq_ok_iff, outcome_pure_eq_ok_iff, outcome_expectSymbol] at taken
      obtain ⟨index, _, takenIndex, _, _, last, rfl, _, rfl, rfl⟩ := taken
      exact .item takenIndex
    · simp only [outcome_bind_eq_ok_iff, outcome_pure_eq_ok_iff] at taken
      obtain ⟨called, last, takenCall, _, rfl, rfl⟩ := taken
      exact .call (.inl rfl) takenCall
    · simp only [outcome_bind_eq_ok_iff, outcome_pure_eq_ok_iff] at taken
      obtain ⟨called, last, takenCall, _, rfl, rfl⟩ := taken
      exact .call (.inr rfl) takenCall
    · next noBracket noParen noDot =>
      cases taken
      refine .var fun token first => ?_
      obtain ⟨behind, shape⟩ := List.head?_eq_some_iff.mp first
      unfold continuesName
      split
      · exact absurd shape (noBracket behind)
      · exact absurd shape (noParen behind)
      · exact absurd shape (noDot behind)
      · rfl
    · simp at taken
  · intro read
    rw [Takes]
    cases read with
    | int => simp [term]
    | string => simp [term]
    | constant => simp [term]
    | paren takenInner =>
        rw [term]
        exact outcome_bind_of takenInner fun _ => rfl
    | unary op takenOperand =>
        cases op <;>
        · rw [UnaryOp.symbol, term]
          exact outcome_bind_of takenOperand fun _ => rfl
    | item takenIndex =>
        rw [term]
        exact outcome_bind_of takenIndex fun _ => rfl
    | call opens takenCall =>
        rcases opens with rfl | rfl <;>
        · rw [term]
          exact outcome_bind_of takenCall fun _ => rfl
    | var stops =>
        rw [term]
        · rfl
        all_goals
          rintro behind rfl
          simp [continuesName] at stops

/-! Statements. -/

theorem takes_index {found : Option Expression} :
    Takes index tokens found rest ↔
      (∃ behind, tokens = .symbol .leftBracket :: behind ∧
        ∃ inside, Takes expression behind inside (.symbol .rightBracket :: rest) ∧
          some inside = found) ∨
      Stops (· == .symbol .leftBracket) tokens ∧ none = found ∧ tokens = rest := by
  unfold Takes index
  split
  · simp only [outcome_bind_eq_ok_iff, outcome_pure_eq_ok_iff, exists_prop, outcome_and_shorter,
      exists_eq_right_right]
    simp only [outcome_expectSymbol]
    simp
  · next other =>
    have other : ∀ behind, tokens ≠ .symbol .leftBracket :: behind := other
    simp [stops_beq_iff.mpr other, other]

theorem takes_condition {found : Expression} :
    Takes condition tokens found rest ↔
      ∃ behind, tokens = .symbol .leftParen :: behind ∧
        Takes expression behind found (.symbol .rightParen :: rest) := by
  rw [Takes, condition]
  simp only [outcome_bind_eq_ok_iff, outcome_pure_eq_ok_iff, exists_prop, outcome_and_shorter,
    exists_eq_right_right]
  simp [Takes]

theorem takes_returnValue {found : Option Expression} :
    Takes returnValue tokens found rest ↔
      tokens = .symbol .semicolon :: rest ∧ none = found ∨
      Stops (· == .symbol .semicolon) tokens ∧
        ∃ value, Takes expression tokens value (.symbol .semicolon :: rest) ∧
          some value = found := by
  unfold Takes returnValue
  split
  · simp [and_comm]
  · next other =>
    have other : ∀ behind, tokens ≠ .symbol .semicolon :: behind := other
    simp only [outcome_bind_eq_ok_iff, outcome_pure_eq_ok_iff, exists_prop, outcome_and_shorter,
      exists_eq_right_right]
    simp [stops_beq_iff.mpr other, other]

theorem takes_block {found : List Statement} :
    Takes block tokens found rest ↔
      ∃ behind, tokens = .symbol .leftBrace :: behind ∧
        Takes statements behind found (.symbol .rightBrace :: rest) := by
  rw [Takes, block]
  simp only [outcome_bind_eq_ok_iff, outcome_pure_eq_ok_iff, exists_prop, outcome_and_shorter,
    exists_eq_right_right]
  simp [Takes]

theorem takes_alternative {found : List Statement} :
    Takes alternative tokens found rest ↔
      (∃ behind, tokens = .keyword .else :: behind ∧ Takes block behind found rest) ∨
      Stops (· == .keyword .else) tokens ∧ [] = found ∧ tokens = rest := by
  rw [Takes, alternative.eq_def]
  split
  · simp only [outcome_bind_eq_ok_iff, outcome_pure_eq_ok_iff, exists_prop, outcome_and_shorter,
      exists_eq_right_right]
    simp [Takes]
  · next other =>
    have other : ∀ behind, tokens ≠ .keyword .else :: behind := other
    simp [stops_beq_iff.mpr other, other]

theorem takes_statements {found : List Statement} :
    Takes statements tokens found rest ↔
      (∃ behind, tokens = .symbol .rightBrace :: behind) ∧ [] = found ∧ tokens = rest ∨
      Stops (· == .symbol .rightBrace) tokens ∧
        ∃ first middle, Takes statement tokens first middle ∧
          ∃ others, Takes statements middle others rest ∧ first :: others = found := by
  rw [Takes, statements.eq_def]
  split
  · simp
  · next other =>
    have other : ∀ behind, tokens ≠ .symbol .rightBrace :: behind := other
    simp only [outcome_bind_eq_ok_iff, outcome_pure_eq_ok_iff, exists_prop, outcome_and_shorter,
      exists_eq_right_right]
    simp [stops_beq_iff.mpr other, other, Takes]

/-- The ways to read a statement. -/
inductive StatementRead : List Token → Statement → List Token → Prop where
  | let {name tokens position behind value rest} :
      Takes index tokens position (.symbol .equal :: behind) →
      Takes expression behind value (.symbol .semicolon :: rest) →
      StatementRead (.keyword .let :: .identifier name :: tokens) (.let name position value) rest
  | if {tokens test middle thenBranch last elseBranch rest} : Takes condition tokens test middle →
      Takes block middle thenBranch last → Takes alternative last elseBranch rest →
      StatementRead (.keyword .if :: tokens) (.if test thenBranch elseBranch) rest
  | while {tokens test middle body rest} : Takes condition tokens test middle →
      Takes block middle body rest →
      StatementRead (.keyword .while :: tokens) (.while test body) rest
  | do {first tokens called rest} : Takes (call first) tokens called (.symbol .semicolon :: rest) →
      StatementRead (.keyword .do :: .identifier first :: tokens) (.do called) rest
  | return {tokens value rest} : Takes returnValue tokens value rest →
      StatementRead (.keyword .return :: tokens) (.return value) rest

theorem takes_statement {found : Statement} :
    Takes statement tokens found rest ↔ StatementRead tokens found rest := by
  constructor
  · intro taken
    rw [Takes, statement.eq_def] at taken
    split at taken
    · simp only [letStatement, outcome_bind_eq_ok_iff, outcome_pure_eq_ok_iff,
        outcome_expectKeyword, outcome_expectSymbol, outcome_identifier] at taken
      obtain ⟨_, _, rfl, _, name, _, rfl, _, position, _, takenIndex, _, _, _, rfl, _, value, _,
        takenValue, _, _, last, rfl, _, rfl, rfl⟩ := taken
      exact .let takenIndex takenValue
    · simp only [ifStatement, outcome_bind_eq_ok_iff, outcome_pure_eq_ok_iff,
        outcome_expectKeyword] at taken
      obtain ⟨_, _, rfl, _, test, _, takenTest, _, thenBranch, _, takenThen, _, elseBranch, last,
        takenElse, _, rfl, rfl⟩ := taken
      exact .if takenTest takenThen takenElse
    · simp only [whileStatement, outcome_bind_eq_ok_iff, outcome_pure_eq_ok_iff,
        outcome_expectKeyword] at taken
      obtain ⟨_, _, rfl, _, test, _, takenTest, _, body, last, takenBody, _, rfl, rfl⟩ := taken
      exact .while takenTest takenBody
    · simp only [doStatement, outcome_bind_eq_ok_iff, outcome_pure_eq_ok_iff,
        outcome_expectKeyword, outcome_expectSymbol, outcome_identifier] at taken
      obtain ⟨_, _, rfl, _, first, _, rfl, _, called, _, takenCall, _, _, last, rfl, _, rfl,
        rfl⟩ := taken
      exact .do takenCall
    · simp only [returnStatement, outcome_bind_eq_ok_iff, outcome_pure_eq_ok_iff,
        outcome_expectKeyword] at taken
      obtain ⟨_, _, rfl, _, value, last, takenValue, _, rfl, rfl⟩ := taken
      exact .return takenValue
    · simp at taken
  · intro read
    rw [Takes, statement.eq_def]
    cases read with
    | «let» takenIndex takenValue =>
        refine outcome_bind_of outcome_expectKeyword_cons fun _ => ?_
        refine outcome_bind_of (outcome_identifier.mpr rfl) fun _ => ?_
        refine outcome_bind_of takenIndex fun _ => ?_
        refine outcome_bind_of ((@outcome_expectSymbol _ _ _ ()).mpr rfl) fun _ => ?_
        exact outcome_bind_of takenValue fun _ => rfl
    | «if» takenTest takenThen takenElse =>
        dsimp only [List.head?_cons]
        rw [ifStatement]
        refine outcome_bind_of outcome_expectKeyword_cons fun _ => ?_
        refine outcome_bind_of takenTest fun _ => ?_
        refine outcome_bind_of takenThen fun _ => ?_
        exact outcome_bind_of takenElse fun _ => rfl
    | «while» takenTest takenBody =>
        dsimp only [List.head?_cons]
        rw [whileStatement]
        refine outcome_bind_of outcome_expectKeyword_cons fun _ => ?_
        refine outcome_bind_of takenTest fun _ => ?_
        exact outcome_bind_of takenBody fun _ => rfl
    | «do» takenCall =>
        refine outcome_bind_of outcome_expectKeyword_cons fun _ => ?_
        refine outcome_bind_of (outcome_identifier.mpr rfl) fun _ => ?_
        exact outcome_bind_of takenCall fun _ => rfl
    | «return» takenValue =>
        refine outcome_bind_of outcome_expectKeyword_cons fun _ => ?_
        exact outcome_bind_of takenValue fun _ => rfl

/-! Declarations. -/

theorem takes_nameList {found : List String} :
    Takes nameList tokens found rest ↔
      Takes (commaSeparated identifier) tokens found (.symbol .semicolon :: rest) := by
  rw [Takes, nameList]
  simp only [outcome_bind_eq_ok_iff, outcome_pure_eq_ok_iff, exists_prop, outcome_and_shorter,
    exists_eq_right_right]
  simp [Takes]

@[simp] theorem outcome_returnType {found : ReturnType} :
    outcome (returnType tokens) = .ok (found, rest) ↔ tokens = found.token :: rest := by
  unfold returnType
  split
  · cases found with
    | void => simp [ReturnType.token]
    | value type => cases type <;> simp [ReturnType.token, DataType.token]
  · next other =>
    have other : ∀ behind, tokens ≠ .keyword .void :: behind := other
    simp only [outcome_bind_eq_ok_iff, outcome_pure_eq_ok_iff, exists_prop, outcome_and_shorter,
      exists_eq_right_right]
    cases found <;> simp [ReturnType.token, other]

@[simp] theorem outcome_parameter {found : Parameter} :
    outcome (parameter tokens) = .ok (found, rest) ↔
      tokens = found.type.token :: .identifier found.name :: rest := by
  rw [parameter]
  simp only [outcome_bind_eq_ok_iff, outcome_pure_eq_ok_iff, exists_prop, outcome_and_shorter,
    exists_eq_right_right]
  obtain ⟨type, name⟩ := found
  simp

theorem takes_parameters {found : List Parameter} :
    Takes parameters tokens found rest ↔
      (∃ behind, tokens = .symbol .rightParen :: behind) ∧ [] = found ∧ tokens = rest ∨
      Stops (· == .symbol .rightParen) tokens ∧
        Takes (commaSeparated parameter) tokens found rest := by
  unfold Takes parameters
  split
  · simp
  · next other =>
    have other : ∀ behind, tokens ≠ .symbol .rightParen :: behind := other
    simp only [outcome_bind_eq_ok_iff, outcome_pure_eq_ok_iff, exists_prop, outcome_and_shorter,
      exists_eq_right_right]
    simp [stops_beq_iff.mpr other, other]

theorem memberKind?_eq_some_iff {token : Token} {kind : MemberKind} :
    memberKind? token = some kind ↔ token = .keyword (.member kind) := by
  unfold memberKind?
  split <;> simp_all

theorem subroutineKind?_eq_some_iff {token : Token} {kind : SubroutineKind} :
    subroutineKind? token = some kind ↔ token = .keyword (.subroutine kind) := by
  unfold subroutineKind?
  split <;> simp_all

theorem takes_memberDec {found : MemberDec} :
    Takes memberDec tokens found rest ↔
      ∃ behind, tokens = .keyword (.member found.kind) :: found.type.token :: behind ∧
        Takes nameList behind found.names rest := by
  rw [Takes, memberDec]
  simp only [outcome_bind_eq_ok_iff, outcome_pure_eq_ok_iff, exists_prop, outcome_and_shorter,
    exists_eq_right_right]
  obtain ⟨kind, type, names⟩ := found
  simp [Takes, memberKind?_eq_some_iff]

theorem takes_localDec {found : LocalDec} :
    Takes localDec tokens found rest ↔
      ∃ behind, tokens = found.type.token :: behind ∧ Takes nameList behind found.names rest := by
  rw [Takes, localDec]
  simp only [outcome_bind_eq_ok_iff, outcome_pure_eq_ok_iff, exists_prop, outcome_and_shorter,
    exists_eq_right_right]
  obtain ⟨type, names⟩ := found
  simp [Takes]

theorem takes_subroutineBody {found : List LocalDec × List Statement} :
    Takes subroutineBody tokens found rest ↔
      ∃ localTokens, tokens = .symbol .leftBrace :: localTokens ∧
        ∃ bodyTokens, Takes (many (· == .keyword .var) (skipping localDec)) localTokens found.1
            bodyTokens ∧
          Takes statements bodyTokens found.2 (.symbol .rightBrace :: rest) := by
  rw [Takes, subroutineBody]
  simp only [outcome_bind_eq_ok_iff, outcome_pure_eq_ok_iff, exists_prop, outcome_and_shorter,
    exists_eq_right_right]
  obtain ⟨locals, body⟩ := found
  simp [Takes]

theorem takes_subroutineDec {found : Subroutine} :
    Takes subroutineDec tokens found rest ↔
      ∃ parameterTokens, tokens = .keyword (.subroutine found.kind) :: found.returnType.token ::
          .identifier found.name :: .symbol .leftParen :: parameterTokens ∧
        ∃ bodyTokens, Takes parameters parameterTokens found.parameters
            (.symbol .rightParen :: bodyTokens) ∧
          Takes subroutineBody bodyTokens (found.locals, found.body) rest := by
  rw [Takes, subroutineDec]
  simp only [outcome_bind_eq_ok_iff, outcome_pure_eq_ok_iff, exists_prop, outcome_and_shorter,
    exists_eq_right_right]
  obtain ⟨kind, returnType, name, parameters, locals, body⟩ := found
  simp [Takes, subroutineKind?_eq_some_iff]

theorem takes_classDec {found : Class} :
    Takes classDec tokens found rest ↔
      ∃ memberTokens, tokens = .keyword .cls :: .identifier found.name :: .symbol .leftBrace ::
          memberTokens ∧
        ∃ subroutineTokens, Takes (many startsMember memberDec) memberTokens found.members
            subroutineTokens ∧
          Takes (many startsSubroutine subroutineDec) subroutineTokens found.subroutines
            (.symbol .rightBrace :: rest) := by
  rw [Takes, classDec]
  simp only [outcome_bind_eq_ok_iff, outcome_pure_eq_ok_iff, exists_prop, outcome_and_shorter,
    exists_eq_right_right]
  obtain ⟨name, members, subroutines⟩ := found
  simp [Takes]

end ClassLang.Grammar

namespace ClassLang

open Grammar

/-- A class is read from all tokens or from none. -/
theorem Class.ofTokens_eq_ok_iff {tokens : List Token} {cls : Class} :
    Class.ofTokens tokens = .ok cls ↔ Takes classDec tokens cls [] := by
  rw [Class.ofTokens, Takes, outcome_eq_ok_iff]
  cases classDec tokens with
  | error failure => simp
  | ok parsed =>
      obtain ⟨found, rest, shorter⟩ := parsed
      cases rest with
      | nil => simpa using fun _ => shorter
      | cons token behind => simp [throw, throwThe, MonadExceptOf.throw]

end ClassLang
