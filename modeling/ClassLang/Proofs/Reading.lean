import ClassLang.Proofs.Productions

/-!
The productions as programs that read token after token.

Without its bound a production is a step on the tokens that are left. Most productions are steps
one after the other; the others look at the next token and go on as it tells them. No production
looks any further before it takes a token.
-/

namespace ClassLang.Grammar

/-- Takes tokens off the front, or fails where it stands. -/
abbrev Reader (α : Type) : Type := StateT (List Token) (Except Failure) α

variable {α β κ : Type}

/-- The production without the bound on what is left. -/
def reading {bound : List Token → Nat}
    (production : (tokens : List Token) → Except Failure (Parsed (bound tokens) α)) : Reader α :=
  fun tokens => outcome (production tokens)

namespace Reader

def fail (expected : Expectation) : Reader α :=
  fun tokens => .error ⟨expected, tokens⟩

/-- Take the next token if it stands for a value. -/
def single (expected : Expectation) (accept : Token → Option α) : Reader α
  | [] => .error ⟨expected, []⟩
  | token :: rest =>
      match accept token with
      | some value => .ok (value, rest)
      | none => .error ⟨expected, token :: rest⟩

/-- Take the next token if it leads on to a reader, and go on with that one. -/
def choose (branch : Token → Option (Reader α)) (otherwise : Reader α) : Reader α
  | [] => otherwise []
  | token :: rest =>
      match branch token with
      | some reader => reader rest
      | none => otherwise (token :: rest)

/-- Nothing if the closing token comes next, which stays. -/
def upTo (closing : Token) (items : Reader (List α)) : Reader (List α) :=
  fun tokens => if tokens.head? = some closing then .ok ([], tokens) else items tokens

/-- Go on for as long as the next token starts something. -/
def whileNext (starts : Token → Bool) (items : Reader (List α)) : Reader (List α) :=
  fun tokens => if tokens.head?.any starts then items tokens else .ok ([], tokens)

def startsWith (expected : Token) (token : Token) : Option Unit :=
  if token = expected then some () else none

/-- Go on with the first reader behind the expected token, and with the other one if it is not
there. -/
def ifNext (expected : Token) (reader otherwise : Reader α) : Reader α :=
  choose (fun token => (startsWith expected token).map fun _ => reader) otherwise

theorem choose_of_none {branch : Token → Option (Reader α)} {otherwise : Reader α}
    {tokens : List Token} (other : ∀ token ∈ tokens.head?, branch token = none) :
    choose branch otherwise tokens = otherwise tokens := by
  cases tokens with
  | nil => rfl
  | cons token rest => simp only [choose, other token rfl]

theorem isSome_startsWith (expected token : Token) :
    (startsWith expected token).isSome = (token == expected) := by
  by_cases equal : token = expected <;> simp [startsWith, equal]

theorem startsWith_eq_some_iff {expected token : Token} {kind : Unit} :
    startsWith expected token = some kind ↔ token = expected := by
  simp [startsWith]

theorem ifNext_of_ne {expected : Token} {reader otherwise : Reader α} {tokens : List Token}
    (other : ∀ rest, tokens ≠ expected :: rest) :
    ifNext expected reader otherwise tokens = otherwise tokens := by
  refine choose_of_none fun token inFront => ?_
  obtain ⟨rest, rfl⟩ := List.head?_eq_some_iff.mp inFront
  have apart : token ≠ expected := fun equal => other rest (by rw [equal])
  simp [startsWith, apart]

theorem upTo_of_ne {closing : Token} {items : Reader (List α)} {tokens : List Token}
    (other : ∀ rest, tokens ≠ closing :: rest) : upTo closing items tokens = items tokens := by
  refine if_neg fun first => ?_
  obtain ⟨rest, shape⟩ := List.head?_eq_some_iff.mp first
  exact other rest shape

theorem bind_apply (first : Reader α) (next : α → Reader β) (tokens : List Token) :
    (first >>= next) tokens = first tokens >>= fun found => next found.1 found.2 := rfl

end Reader

open Reader

/-- What comes behind may look at the value and at the tokens that are left, but not at the
bound. -/
theorem outcome_bind {bound other : Nat} {result : Except Failure (Parsed bound α)}
    {next : Parsed bound α → Except Failure (Parsed other β)} {first : Reader α}
    {further : α → Reader β} {tokens : List Token} (sameFirst : outcome result = first tokens)
    (sameNext : ∀ parsed, outcome (next parsed) = further parsed.value parsed.rest) :
    outcome (result >>= next) = (first >>= further) tokens := by
  rw [Reader.bind_apply, ← sameFirst]
  cases result with
  | error failure => rfl
  | ok parsed => exact sameNext parsed

/-! Single tokens. -/

theorem reading_expect (expected : Token) :
    reading (expect expected) =
      single (.token expected) fun found => if found = expected then some () else none := by
  funext tokens
  cases tokens with
  | nil => rfl
  | cons found rest =>
      simp only [reading, expect, single]
      split <;> rfl

theorem reading_identifier :
    reading identifier = single .identifier fun
      | .identifier name => some name
      | _ => none := by
  funext tokens
  cases tokens with
  | nil => rfl
  | cons found rest => cases found <;> rfl

theorem reading_dataType :
    reading dataType = single .type fun
      | .keyword (.primitive type) => some (.primitive type)
      | .identifier className => some (.object className)
      | _ => none := by
  funext tokens
  match tokens with
  | [] => rfl
  | .keyword found :: rest => cases found <;> rfl
  | .int _ :: _ => rfl
  | .string _ :: _ => rfl
  | .symbol _ :: _ => rfl
  | .identifier _ :: _ => rfl

theorem reading_returnType :
    reading returnType = single .type fun
      | .keyword .void => some .void
      | .keyword (.primitive type) => some (.value (.primitive type))
      | .identifier className => some (.value (.object className))
      | _ => none := by
  funext tokens
  match tokens with
  | [] => rfl
  | .keyword found :: rest => cases found <;> rfl
  | .int _ :: _ => rfl
  | .string _ :: _ => rfl
  | .symbol _ :: _ => rfl
  | .identifier _ :: _ => rfl

theorem reading_kindToken (expected : Expectation) (kind? : Token → Option κ) :
    reading (kindToken expected kind?) = single expected kind? := by
  funext tokens
  cases tokens with
  | nil => rfl
  | cons found rest =>
      simp only [reading, kindToken, single]
      cases kind? found <;> rfl

/-! Lists. -/

theorem reading_many (starts : Token → Bool) (item : Production α) :
    reading (many starts item) = whileNext starts (do
      let value ← reading item
      let others ← reading (many starts item)
      return value :: others) := by
  funext tokens
  rw [reading, many, manyFrom, whileNext]
  split
  · refine outcome_bind rfl fun parsed => ?_
    rw [outcome_manyFrom, Reader.bind_apply, reading]
    cases outcome (many starts item parsed.rest) <;> rfl
  · rfl

/-- A loop over items takes the token that starts an item and goes on as this token tells it. -/
theorem reading_many_eq_choose {starts : Token → Bool} {start : Token → Option κ}
    {item : Production α} {further : κ → Reader α}
    (sameStart : ∀ token, starts token = (start token).isSome)
    (sameItem : ∀ token kind rest, start token = some kind →
      reading item (token :: rest) = further kind rest) :
    reading (many starts item) =
      choose
        (fun token => (start token).map fun kind => do
          let value ← further kind
          let others ← reading (many starts item)
          return value :: others)
        (pure []) := by
  funext tokens
  conv_lhs => rw [reading_many, whileNext]
  cases tokens with
  | nil => rfl
  | cons token rest =>
      cases started : start token with
      | none =>
          rw [choose_of_none (by simp [started]), if_neg (by simp [sameStart, started])]
          rfl
      | some kind =>
          rw [if_pos (by simp [sameStart, started]), Reader.bind_apply,
            sameItem token kind rest started]
          simp only [choose, started, Option.map_some]
          rfl

theorem reading_skipping_cons (item : Production α) (token : Token) (rest : List Token) :
    reading (skipping item) (token :: rest) = reading item rest := by
  rw [reading, skipping, reading]
  cases item rest <;> rfl

/-- Items behind tokens of one kind. -/
theorem reading_many_skipping (lead : Token) (item : Production α) :
    reading (many (· == lead) (skipping item)) =
      ifNext lead
        (do
          let value ← reading item
          let others ← reading (many (· == lead) (skipping item))
          return value :: others)
        (pure []) := by
  refine reading_many_eq_choose (fun token => (isSome_startsWith lead token).symm) ?_
  intro token kind rest _
  exact reading_skipping_cons item token rest

theorem reading_commaSeparated (item : Production α) :
    reading (commaSeparated item) = (do
      let first ← reading item
      let others ← reading (many (· == .symbol .comma) (skipping item))
      return first :: others) := by
  funext tokens
  exact outcome_bind rfl fun _ => outcome_bind rfl fun _ => rfl

theorem reading_nameList :
    reading nameList = (do
      let names ← reading (commaSeparated identifier)
      reading (expectSymbol .semicolon)
      return names) := by
  funext tokens
  exact outcome_bind rfl fun _ => outcome_bind rfl fun _ => rfl

/-! Terms, calls and expressions. -/

/-- The arguments of a call, once its opening parenthesis has been read, and the parenthesis
that closes them. -/
def supplied : Reader (List Expression) := do
  let found ← reading arguments
  reading (expectSymbol .rightParen)
  return found

/-- The call of a subroutine by its name, read up to the opening parenthesis. -/
def ownCall (name : String) : Reader Call := do
  let found ← supplied
  return .mk none name found

/-- The call of a subroutine on a receiver, read up to the dot. -/
def callOn (receiver : String) : Reader Call := do
  let name ← reading identifier
  reading (expectSymbol .leftParen)
  let found ← supplied
  return .mk (some receiver) name found

/-- How a term that starts with an identifier goes on. -/
def nameBranch (first : String) : Token → Option (Reader Term)
  | .symbol .leftBracket => some do
      let index ← reading expression
      reading (expectSymbol .rightBracket)
      return .item first index
  | .symbol .leftParen => some do
      let called ← ownCall first
      return .call called
  | .symbol .dot => some do
      let called ← callOn first
      return .call called
  | _ => none

def termBranch : Token → Option (Reader Term)
  | .int value => some (pure (.int value))
  | .string text => some (pure (.string text))
  | .keyword (.constant value) => some (pure (.constant value))
  | .symbol .leftParen => some do
      let inner ← reading expression
      reading (expectSymbol .rightParen)
      return .paren inner
  | .symbol .minus => some do
      let operand ← reading term
      return .unary .negate operand
  | .symbol .tilde => some do
      let operand ← reading term
      return .unary .not operand
  | .identifier first => some (choose (nameBranch first) (pure (.var first)))
  | _ => none

theorem reading_expression :
    reading expression = (do
      let first ← reading term
      let others ← reading operations
      return .term first :: others) := by
  funext tokens
  rw [reading, expression]
  exact outcome_bind rfl fun _ => outcome_bind rfl fun _ => rfl

theorem reading_operations :
    reading operations =
      choose
        (fun token => (operator? token).map fun op => do
          let operand ← reading term
          let others ← reading operations
          return .op op :: .term operand :: others)
        (pure []) := by
  funext tokens
  rw [reading, operations.eq_def]
  cases tokens with
  | nil => rfl
  | cons token rest =>
      cases started : operator? token with
      | none => simp only [choose, started, Option.map_none]; rfl
      | some op =>
          simp only [choose, started, Option.map_some]
          exact outcome_bind rfl fun _ => outcome_bind rfl fun _ => rfl

theorem reading_callee (first : String) :
    reading (callee first) =
      ifNext (.symbol .dot)
        (do
          let name ← reading identifier
          return (some first, name))
        (pure (none, first)) := by
  funext tokens
  unfold reading callee
  split
  · exact outcome_bind rfl fun _ => rfl
  · next other =>
    rw [ifNext_of_ne other]
    rfl

theorem reading_call (first : String) :
    reading (call first) = (do
      let target ← reading (callee first)
      reading (expectSymbol .leftParen)
      let found ← supplied
      return .mk target.1 target.2 found) := by
  funext tokens
  rw [reading, call]
  refine outcome_bind rfl fun _ => outcome_bind rfl fun parsed => ?_
  simp only [supplied, bind_assoc, pure_bind]
  exact outcome_bind rfl fun _ => outcome_bind rfl fun _ => rfl

theorem reading_arguments :
    reading arguments = upTo (.symbol .rightParen) (do
      let first ← reading expression
      let others ← reading moreArguments
      return first :: others) := by
  funext tokens
  rw [reading, arguments.eq_def]
  split
  · rfl
  · next other =>
    rw [upTo_of_ne other]
    exact outcome_bind rfl fun _ => outcome_bind rfl fun _ => rfl

theorem reading_moreArguments :
    reading moreArguments =
      ifNext (.symbol .comma)
        (do
          let next ← reading expression
          let others ← reading moreArguments
          return next :: others)
        (pure []) := by
  funext tokens
  rw [reading, moreArguments.eq_def]
  split
  · exact outcome_bind rfl fun _ => outcome_bind rfl fun _ => rfl
  · next other =>
    rw [ifNext_of_ne other]
    rfl

theorem outcome_call_leftParen (first : String) (rest : List Token) :
    outcome (call first (.symbol .leftParen :: rest)) = ownCall first rest := by
  change reading (call first) _ = _
  rw [reading_call]
  rfl

theorem outcome_call_dot (first : String) (rest : List Token) :
    outcome (call first (.symbol .dot :: rest)) = callOn first rest := by
  change reading (call first) _ = _
  rw [reading_call, callOn, Reader.bind_apply, Reader.bind_apply]
  cases rest with
  | nil => rfl
  | cons token behind => cases token <;> rfl

theorem nameBranch_eq_none_iff {first : String} {token : Token} :
    nameBranch first token = none ↔ continuesName token = false := by
  cases token with
  | symbol symbol => cases symbol <;> simp [nameBranch, continuesName]
  | _ => simp [nameBranch, continuesName]

theorem reading_term : reading term = choose termBranch (fail .term) := by
  funext tokens
  rw [reading, term.eq_def]
  split
  · rfl
  · rfl
  · rfl
  · exact outcome_bind rfl fun _ => outcome_bind rfl fun _ => rfl
  · exact outcome_bind rfl fun _ => rfl
  · exact outcome_bind rfl fun _ => rfl
  · exact outcome_bind rfl fun _ => outcome_bind rfl fun _ => rfl
  · exact outcome_bind (outcome_call_leftParen _ _) fun _ => rfl
  · exact outcome_bind (outcome_call_dot _ _) fun _ => rfl
  · next first rest noBracket noParen noDot =>
    change _ = choose (nameBranch first) (pure (.var first)) rest
    rw [choose_of_none]
    · rfl
    intro token inFront
    obtain ⟨behind, shape⟩ := List.head?_eq_some_iff.mp inFront
    unfold nameBranch
    split
    · exact absurd shape (noBracket behind)
    · exact absurd shape (noParen behind)
    · exact absurd shape (noDot behind)
    · rfl
  · next noInt noString noConstant noParen noMinus noTilde _ _ _ noName =>
    rw [choose_of_none]
    · rfl
    intro token inFront
    obtain ⟨behind, shape⟩ := List.head?_eq_some_iff.mp inFront
    cases token with
    | int value => exact absurd shape (noInt value behind)
    | string text => exact absurd shape (noString text behind)
    | identifier first => exact absurd shape (noName first behind)
    | keyword keyword =>
        cases keyword with
        | constant value => exact absurd shape (noConstant value behind)
        | _ => rfl
    | symbol symbol =>
        cases symbol with
        | leftParen => exact absurd shape (noParen behind)
        | minus => exact absurd shape (noMinus behind)
        | tilde => exact absurd shape (noTilde behind)
        | _ => rfl

/-! Statements. -/

theorem reading_index :
    reading index =
      ifNext (.symbol .leftBracket)
        (do
          let inside ← reading expression
          reading (expectSymbol .rightBracket)
          return some inside)
        (pure none) := by
  funext tokens
  unfold reading index
  split
  · exact outcome_bind rfl fun _ => outcome_bind rfl fun _ => rfl
  · next other =>
    rw [ifNext_of_ne other]
    rfl

theorem reading_condition :
    reading condition = (do
      reading (expectSymbol .leftParen)
      let inside ← reading expression
      reading (expectSymbol .rightParen)
      return inside) := by
  funext tokens
  exact outcome_bind rfl fun _ => outcome_bind rfl fun _ => outcome_bind rfl fun _ => rfl

theorem reading_returnValue :
    reading returnValue =
      ifNext (.symbol .semicolon) (pure none) (do
        let value ← reading expression
        reading (expectSymbol .semicolon)
        return some value) := by
  funext tokens
  unfold reading returnValue
  split
  · rfl
  · next other =>
    rw [ifNext_of_ne other]
    exact outcome_bind rfl fun _ => outcome_bind rfl fun _ => rfl

theorem reading_letStatement :
    reading letStatement = (do
      reading (expectKeyword .let)
      let name ← reading identifier
      let position ← reading index
      reading (expectSymbol .equal)
      let value ← reading expression
      reading (expectSymbol .semicolon)
      return .let name position value) := by
  funext tokens
  exact outcome_bind rfl fun _ => outcome_bind rfl fun _ => outcome_bind rfl fun _ =>
    outcome_bind rfl fun _ => outcome_bind rfl fun _ => outcome_bind rfl fun _ => rfl

theorem reading_ifStatement :
    reading ifStatement = (do
      reading (expectKeyword .if)
      let test ← reading condition
      let thenBranch ← reading block
      let elseBranch ← reading alternative
      return .if test thenBranch elseBranch) := by
  funext tokens
  rw [reading, ifStatement]
  exact outcome_bind rfl fun _ => outcome_bind rfl fun _ => outcome_bind rfl fun _ =>
    outcome_bind rfl fun _ => rfl

theorem reading_whileStatement :
    reading whileStatement = (do
      reading (expectKeyword .while)
      let test ← reading condition
      let body ← reading block
      return .while test body) := by
  funext tokens
  rw [reading, whileStatement]
  exact outcome_bind rfl fun _ => outcome_bind rfl fun _ => outcome_bind rfl fun _ => rfl

theorem reading_doStatement :
    reading doStatement = (do
      reading (expectKeyword .do)
      let first ← reading identifier
      let called ← reading (call first)
      reading (expectSymbol .semicolon)
      return .do called) := by
  funext tokens
  exact outcome_bind rfl fun _ => outcome_bind rfl fun _ => outcome_bind rfl fun _ =>
    outcome_bind rfl fun _ => rfl

theorem reading_returnStatement :
    reading returnStatement = (do
      reading (expectKeyword .return)
      let value ← reading returnValue
      return .return value) := by
  funext tokens
  exact outcome_bind rfl fun _ => outcome_bind rfl fun _ => rfl

/-- How a statement goes on behind its keyword. -/
def statementBranch : Token → Option (Reader Statement)
  | .keyword .let => some do
      let name ← reading identifier
      let position ← reading index
      reading (expectSymbol .equal)
      let value ← reading expression
      reading (expectSymbol .semicolon)
      return .let name position value
  | .keyword .if => some do
      let test ← reading condition
      let thenBranch ← reading block
      let elseBranch ← reading alternative
      return .if test thenBranch elseBranch
  | .keyword .while => some do
      let test ← reading condition
      let body ← reading block
      return .while test body
  | .keyword .do => some do
      let first ← reading identifier
      let called ← reading (call first)
      reading (expectSymbol .semicolon)
      return .do called
  | .keyword .return => some do
      let value ← reading returnValue
      return .return value
  | _ => none

theorem reading_statement : reading statement = choose statementBranch (fail .statement) := by
  funext tokens
  rw [reading, statement.eq_def]
  split
  case h_1 first =>
    obtain ⟨rest, rfl⟩ := List.head?_eq_some_iff.mp first
    exact congrFun reading_letStatement (.keyword .let :: rest)
  case h_2 first =>
    obtain ⟨rest, rfl⟩ := List.head?_eq_some_iff.mp first
    exact congrFun reading_ifStatement (.keyword .if :: rest)
  case h_3 first =>
    obtain ⟨rest, rfl⟩ := List.head?_eq_some_iff.mp first
    exact congrFun reading_whileStatement (.keyword .while :: rest)
  case h_4 first =>
    obtain ⟨rest, rfl⟩ := List.head?_eq_some_iff.mp first
    exact congrFun reading_doStatement (.keyword .do :: rest)
  case h_5 first =>
    obtain ⟨rest, rfl⟩ := List.head?_eq_some_iff.mp first
    exact congrFun reading_returnStatement (.keyword .return :: rest)
  case h_6 noLet noIf noWhile noDo noReturn =>
    rw [choose_of_none]
    · rfl
    intro token inFront
    unfold statementBranch
    split
    · exact absurd inFront noLet
    · exact absurd inFront noIf
    · exact absurd inFront noWhile
    · exact absurd inFront noDo
    · exact absurd inFront noReturn
    · rfl

theorem reading_statements :
    reading statements = upTo (.symbol .rightBrace) (do
      let first ← reading statement
      let others ← reading statements
      return first :: others) := by
  funext tokens
  rw [reading, statements.eq_def]
  split
  · rfl
  · next other =>
    rw [upTo_of_ne other]
    exact outcome_bind rfl fun _ => outcome_bind rfl fun _ => rfl

theorem reading_block :
    reading block = (do
      reading (expectSymbol .leftBrace)
      let body ← reading statements
      reading (expectSymbol .rightBrace)
      return body) := by
  funext tokens
  rw [reading, block]
  exact outcome_bind rfl fun _ => outcome_bind rfl fun _ => outcome_bind rfl fun _ => rfl

theorem reading_alternative :
    reading alternative = ifNext (.keyword .else) (reading block) (pure []) := by
  funext tokens
  rw [reading, alternative.eq_def]
  split
  · next rest =>
    change outcome (block rest >>= _) = outcome (block rest)
    cases block rest <;> rfl
  · next other =>
    rw [ifNext_of_ne other]
    rfl

/-! Declarations and classes. -/

theorem reading_parameter :
    reading parameter = (do
      let type ← reading dataType
      let name ← reading identifier
      return ⟨type, name⟩) := by
  funext tokens
  exact outcome_bind rfl fun _ => outcome_bind rfl fun _ => rfl

theorem reading_parameters :
    reading parameters =
      upTo (.symbol .rightParen) (reading (commaSeparated parameter)) := by
  funext tokens
  unfold reading parameters
  split
  · rfl
  · next other =>
    rw [upTo_of_ne other]
    cases commaSeparated parameter tokens <;> rfl

/-- A declaration of members, once their kind has been read. -/
def memberRest (kind : MemberKind) : Reader MemberDec := do
  let type ← reading dataType
  let names ← reading nameList
  return ⟨kind, type, names⟩

theorem reading_memberDec :
    reading memberDec = single .memberKind memberKind? >>= memberRest := by
  rw [← reading_kindToken]
  funext tokens
  exact outcome_bind rfl fun _ => outcome_bind rfl fun _ => outcome_bind rfl fun _ => rfl

theorem reading_localDec :
    reading localDec = (do
      let type ← reading dataType
      let names ← reading nameList
      return ⟨type, names⟩) := by
  funext tokens
  exact outcome_bind rfl fun _ => outcome_bind rfl fun _ => rfl

theorem reading_subroutineBody :
    reading subroutineBody = (do
      reading (expectSymbol .leftBrace)
      let locals ← reading (many (· == .keyword .var) (skipping localDec))
      let body ← reading statements
      reading (expectSymbol .rightBrace)
      return (locals, body)) := by
  funext tokens
  exact outcome_bind rfl fun _ => outcome_bind rfl fun _ => outcome_bind rfl fun _ =>
    outcome_bind rfl fun _ => rfl

/-- A subroutine, once its kind has been read. -/
def subroutineRest (kind : SubroutineKind) : Reader Subroutine := do
  let returnType ← reading returnType
  let name ← reading identifier
  reading (expectSymbol .leftParen)
  let parameters ← reading parameters
  reading (expectSymbol .rightParen)
  let (locals, body) ← reading subroutineBody
  return ⟨kind, returnType, name, parameters, locals, body⟩

theorem reading_subroutineDec :
    reading subroutineDec = single .subroutineKind subroutineKind? >>= subroutineRest := by
  rw [← reading_kindToken]
  funext tokens
  exact outcome_bind rfl fun _ => outcome_bind rfl fun _ => outcome_bind rfl fun _ =>
    outcome_bind rfl fun _ => outcome_bind rfl fun _ => outcome_bind rfl fun _ =>
    outcome_bind rfl fun _ => rfl

/-- What starts with a kind is read by taking the kind and going on as it tells. -/
theorem reading_many_kinds {starts : Token → Bool} {expected : Expectation}
    {kind? : Token → Option κ} {item : Production α} {further : κ → Reader α}
    (sameStart : ∀ token, starts token = (kind? token).isSome)
    (sameItem : reading item = single expected kind? >>= further) :
    reading (many starts item) =
      choose
        (fun token => (kind? token).map fun kind => do
          let value ← further kind
          let others ← reading (many starts item)
          return value :: others)
        (pure []) := by
  refine reading_many_eq_choose sameStart ?_
  intro token kind rest started
  rw [sameItem, Reader.bind_apply, single, started]
  rfl

theorem reading_classDec :
    reading classDec = (do
      reading (expectKeyword .cls)
      let name ← reading identifier
      reading (expectSymbol .leftBrace)
      let members ← reading (many startsMember memberDec)
      let subroutines ← reading (many startsSubroutine subroutineDec)
      reading (expectSymbol .rightBrace)
      return ⟨name, members, subroutines⟩) := by
  funext tokens
  exact outcome_bind rfl fun _ => outcome_bind rfl fun _ => outcome_bind rfl fun _ =>
    outcome_bind rfl fun _ => outcome_bind rfl fun _ => outcome_bind rfl fun _ => rfl

/-- Nothing may follow. -/
def finish : Reader Unit
  | [] => .ok ((), [])
  | token :: rest => .error ⟨.endOfInput, token :: rest⟩

def wholeClass : Reader Class := do
  let cls ← reading classDec
  finish
  return cls

end ClassLang.Grammar

namespace ClassLang

open Grammar

theorem Class.ofTokens_eq (tokens : List Token) :
    Class.ofTokens tokens = (wholeClass tokens).map Prod.fst := by
  rw [Class.ofTokens, wholeClass, Reader.bind_apply, reading]
  cases classDec tokens with
  | error failure => rfl
  | ok parsed =>
      obtain ⟨cls, rest, shorter⟩ := parsed
      cases rest <;> rfl

end ClassLang
