import ClassLang.Error
import ClassLang.Token
import ClassLang.Tree.Class

/-!
The grammar, as productions that read a value off the front of a list of tokens.

A production either gives the value with the tokens behind it, of which there are fewer than
before, or says what it expected and keeps the tokens from the offending one on. Reading never
goes back, so the first mismatch is final.
-/

namespace ClassLang.Grammar

inductive Expectation where
  | token (token : Token)
  | identifier
  | type
  | term
  | statement
  | memberKind
  | subroutineKind
  | endOfInput
  deriving DecidableEq, Repr

def Expectation.describe : Expectation → String
  | .token expected => expected.describe
  | .identifier => "an identifier"
  | .type => "a type"
  | .term => "a term"
  | .statement => "a statement (`let`, `if`, `while`, `do` or `return`)"
  | .memberKind => "`static` or `field`"
  | .subroutineKind => "`constructor`, `function` or `method`"
  | .endOfInput => "end of input after the class body"

/-- What was expected, and the tokens that stand there instead. -/
structure Failure where
  expected : Expectation
  remaining : List Token
  deriving DecidableEq, Repr

def Failure.error (failure : Failure) : CompileError :=
  .unexpected failure.expected.describe
    (failure.remaining.head?.elim "end of input" Token.describe)

/-- A value that was read, and the tokens behind it. There are fewer of them than the bound,
which is why reading ends. -/
structure Parsed (bound : Nat) (α : Type) where
  value : α
  rest : List Token
  shorter : rest.length < bound

/-- A production takes at least one token if it succeeds. -/
abbrev Production (α : Type) : Type :=
  (tokens : List Token) → Except Failure (Parsed tokens.length α)

variable {α κ : Type}

/-- The value that was read and the tokens behind it, without the bound. -/
def outcome {bound : Nat} (result : Except Failure (Parsed bound α)) :
    Except Failure (α × List Token) :=
  result.map fun parsed => (parsed.value, parsed.rest)

def expect (expected : Token) : Production Unit
  | [] => .error ⟨.token expected, []⟩
  | found :: rest =>
      if found = expected then .ok ⟨(), rest, by simp⟩
      else .error ⟨.token expected, found :: rest⟩

def expectSymbol (symbol : Symbol) : Production Unit := expect (.symbol symbol)

def expectKeyword (keyword : Keyword) : Production Unit := expect (.keyword keyword)

def identifier : Production String
  | .identifier name :: rest => .ok ⟨name, rest, by simp⟩
  | tokens => .error ⟨.identifier, tokens⟩

def dataType : Production DataType
  | .keyword (.primitive type) :: rest => .ok ⟨.primitive type, rest, by simp⟩
  | .identifier className :: rest => .ok ⟨.object className, rest, by simp⟩
  | tokens => .error ⟨.type, tokens⟩

/-- Take the token that tells a kind. -/
def kindToken (expected : Expectation) (kind? : Token → Option κ) : Production κ
  | [] => .error ⟨expected, []⟩
  | token :: rest =>
      match kind? token with
      | some kind => .ok ⟨kind, rest, by simp⟩
      | none => .error ⟨expected, token :: rest⟩

/-- An item behind a token, which has been looked at before. -/
def skipping (item : Production α) : Production α
  | [] => item []
  | _ :: rest => do
      let ⟨value, rest, _⟩ ← item rest
      return ⟨value, rest, by simp; omega⟩

/-- Read items for as long as the next token starts one. The items read before are kept last
first. -/
def manyFrom {bound : Nat} (starts : Token → Bool) (item : Production α) (values : List α)
    (tokens : List Token) (within : tokens.length < bound) :
    Except Failure (Parsed bound (List α)) :=
  if tokens.head?.any starts then do
    let ⟨value, rest, shorter⟩ ← item tokens
    manyFrom starts item (value :: values) rest (by omega)
  else
    .ok ⟨values.reverse, tokens, within⟩
termination_by tokens.length

/-- The items that follow. There may be none. -/
def many (starts : Token → Bool) (item : Production α) (tokens : List Token) :
    Except Failure (Parsed (tokens.length + 1) (List α)) :=
  manyFrom starts item [] tokens (Nat.lt_succ_self _)

/-- One item, and further ones behind commas. -/
def commaSeparated (item : Production α) : Production (List α) := fun tokens => do
  let ⟨first, rest, _⟩ ← item tokens
  let ⟨others, rest, _⟩ ← many (· == .symbol .comma) (skipping item) rest
  return ⟨first :: others, rest, by omega⟩

/-- The names of a declaration, through the semicolon that ends it. -/
def nameList : Production (List String) := fun tokens => do
  let ⟨names, rest, _⟩ ← commaSeparated identifier tokens
  let ⟨_, rest, _⟩ ← expectSymbol .semicolon rest
  return ⟨names, rest, by omega⟩

/-! Terms, calls and expressions. A term stands at the start of an expression and behind every
operator, so a `-` there negates and a `-` behind a term subtracts. -/

/-- The operator that a token stands for behind a term. -/
def operator? : Token → Option BinaryOp
  | .symbol symbol => BinaryOp.ofSymbol? symbol
  | _ => none

/-- The receiver and the name of a call, once its first identifier has been read. -/
def callee (first : String) (tokens : List Token) :
    Except Failure (Parsed (tokens.length + 1) (Option String × String)) :=
  match tokens with
  | .symbol .dot :: rest => do
      let ⟨name, rest, _⟩ ← identifier rest
      return ⟨(some first, name), rest, by simp; omega⟩
  | tokens => .ok ⟨(none, first), tokens, by simp⟩

mutual

def term (tokens : List Token) : Except Failure (Parsed tokens.length Term) :=
  match tokens with
  | .int value :: rest => .ok ⟨.int value, rest, by simp⟩
  | .string text :: rest => .ok ⟨.string text, rest, by simp⟩
  | .keyword (.constant value) :: rest => .ok ⟨.constant value, rest, by simp⟩
  | .symbol .leftParen :: rest => do
      let ⟨inner, rest, _⟩ ← expression rest
      let ⟨_, rest, _⟩ ← expectSymbol .rightParen rest
      return ⟨.paren inner, rest, by simp; omega⟩
  | .symbol .minus :: rest => do
      let ⟨operand, rest, _⟩ ← term rest
      return ⟨.unary .negate operand, rest, by simp; omega⟩
  | .symbol .tilde :: rest => do
      let ⟨operand, rest, _⟩ ← term rest
      return ⟨.unary .not operand, rest, by simp; omega⟩
  | .identifier array :: .symbol .leftBracket :: rest => do
      let ⟨index, rest, _⟩ ← expression rest
      let ⟨_, rest, _⟩ ← expectSymbol .rightBracket rest
      return ⟨.item array index, rest, by simp; omega⟩
  | .identifier first :: .symbol .leftParen :: rest => do
      let ⟨call, rest, _⟩ ← call first (.symbol .leftParen :: rest)
      return ⟨.call call, rest, by simp at *; omega⟩
  | .identifier first :: .symbol .dot :: rest => do
      let ⟨call, rest, _⟩ ← call first (.symbol .dot :: rest)
      return ⟨.call call, rest, by simp at *; omega⟩
  | .identifier name :: rest => .ok ⟨.var name, rest, by simp⟩
  | tokens => .error ⟨.term, tokens⟩
termination_by 3 * tokens.length
decreasing_by all_goals simp_all; try omega

def expression (tokens : List Token) : Except Failure (Parsed tokens.length Expression) := do
  let ⟨first, rest, _⟩ ← term tokens
  let ⟨others, rest, _⟩ ← operations rest
  return ⟨.term first :: others, rest, by omega⟩
termination_by 3 * tokens.length + 1
decreasing_by all_goals omega

/-- Operators and the terms behind them, for as long as an operator follows. -/
def operations (tokens : List Token) :
    Except Failure (Parsed (tokens.length + 1) (List Element)) :=
  match tokens with
  | [] => .ok ⟨[], [], by simp⟩
  | token :: rest =>
      match operator? token with
      | none => .ok ⟨[], token :: rest, by simp⟩
      | some op => do
          let ⟨operand, rest, _⟩ ← term rest
          let ⟨others, rest, _⟩ ← operations rest
          return ⟨.op op :: .term operand :: others, rest, by simp; omega⟩
termination_by 3 * tokens.length
decreasing_by all_goals simp_all; try omega

/-- A call, once its first identifier has been read. -/
def call (first : String) (tokens : List Token) : Except Failure (Parsed tokens.length Call) := do
  let ⟨(receiver, name), rest, _⟩ ← callee first tokens
  let ⟨_, rest, _⟩ ← expectSymbol .leftParen rest
  let ⟨arguments, rest, _⟩ ← arguments rest
  let ⟨_, rest, _⟩ ← expectSymbol .rightParen rest
  return ⟨.mk receiver name arguments, rest, by omega⟩
termination_by 3 * tokens.length
decreasing_by all_goals omega

/-- The arguments of a call, up to its closing parenthesis. -/
def arguments (tokens : List Token) :
    Except Failure (Parsed (tokens.length + 1) (List Expression)) :=
  match tokens with
  | .symbol .rightParen :: rest => .ok ⟨[], .symbol .rightParen :: rest, by simp⟩
  | tokens => do
      let ⟨first, rest, _⟩ ← expression tokens
      let ⟨others, rest, _⟩ ← moreArguments rest
      return ⟨first :: others, rest, by omega⟩
termination_by 3 * tokens.length + 2
decreasing_by all_goals omega

/-- Further arguments, for as long as a comma follows. -/
def moreArguments (tokens : List Token) :
    Except Failure (Parsed (tokens.length + 1) (List Expression)) :=
  match tokens with
  | .symbol .comma :: rest => do
      let ⟨next, rest, _⟩ ← expression rest
      let ⟨others, rest, _⟩ ← moreArguments rest
      return ⟨next :: others, rest, by simp; omega⟩
  | tokens => .ok ⟨[], tokens, by simp⟩
termination_by 3 * tokens.length
decreasing_by all_goals simp_all; try omega

end

/-! Statements and blocks. -/

/-- The index of an assignment to an array element, if brackets follow. -/
def index (tokens : List Token) :
    Except Failure (Parsed (tokens.length + 1) (Option Expression)) :=
  match tokens with
  | .symbol .leftBracket :: rest => do
      let ⟨index, rest, _⟩ ← expression rest
      let ⟨_, rest, _⟩ ← expectSymbol .rightBracket rest
      return ⟨some index, rest, by simp; omega⟩
  | tokens => .ok ⟨none, tokens, by simp⟩

def condition : Production Expression := fun tokens => do
  let ⟨_, rest, _⟩ ← expectSymbol .leftParen tokens
  let ⟨condition, rest, _⟩ ← expression rest
  let ⟨_, rest, _⟩ ← expectSymbol .rightParen rest
  return ⟨condition, rest, by omega⟩

/-- What a `return` gives back, through the semicolon that ends it. -/
def returnValue : Production (Option Expression)
  | .symbol .semicolon :: rest => .ok ⟨none, rest, by simp⟩
  | tokens => do
      let ⟨value, rest, _⟩ ← expression tokens
      let ⟨_, rest, _⟩ ← expectSymbol .semicolon rest
      return ⟨some value, rest, by omega⟩

def letStatement : Production Statement := fun tokens => do
  let ⟨_, rest, _⟩ ← expectKeyword .let tokens
  let ⟨name, rest, _⟩ ← identifier rest
  let ⟨index, rest, _⟩ ← index rest
  let ⟨_, rest, _⟩ ← expectSymbol .equal rest
  let ⟨value, rest, _⟩ ← expression rest
  let ⟨_, rest, _⟩ ← expectSymbol .semicolon rest
  return ⟨.let name index value, rest, by omega⟩

def doStatement : Production Statement := fun tokens => do
  let ⟨_, rest, _⟩ ← expectKeyword .do tokens
  let ⟨first, rest, _⟩ ← identifier rest
  let ⟨call, rest, _⟩ ← call first rest
  let ⟨_, rest, _⟩ ← expectSymbol .semicolon rest
  return ⟨.do call, rest, by omega⟩

def returnStatement : Production Statement := fun tokens => do
  let ⟨_, rest, _⟩ ← expectKeyword .return tokens
  let ⟨value, rest, _⟩ ← returnValue rest
  return ⟨.return value, rest, by omega⟩

mutual

def statement (tokens : List Token) : Except Failure (Parsed tokens.length Statement) :=
  match tokens.head? with
  | some (.keyword .let) => letStatement tokens
  | some (.keyword .if) => ifStatement tokens
  | some (.keyword .while) => whileStatement tokens
  | some (.keyword .do) => doStatement tokens
  | some (.keyword .return) => returnStatement tokens
  | _ => .error ⟨.statement, tokens⟩
termination_by 3 * tokens.length + 1

def ifStatement (tokens : List Token) : Except Failure (Parsed tokens.length Statement) := do
  let ⟨_, rest, _⟩ ← expectKeyword .if tokens
  let ⟨condition, rest, _⟩ ← condition rest
  let ⟨thenBranch, rest, _⟩ ← block rest
  let ⟨elseBranch, rest, _⟩ ← alternative rest
  return ⟨.if condition thenBranch elseBranch, rest, by omega⟩
termination_by 3 * tokens.length
decreasing_by all_goals omega

def whileStatement (tokens : List Token) : Except Failure (Parsed tokens.length Statement) := do
  let ⟨_, rest, _⟩ ← expectKeyword .while tokens
  let ⟨condition, rest, _⟩ ← condition rest
  let ⟨body, rest, _⟩ ← block rest
  return ⟨.while condition body, rest, by omega⟩
termination_by 3 * tokens.length
decreasing_by omega

/-- Statements up to a closing brace, which stays. -/
def statements (tokens : List Token) :
    Except Failure (Parsed (tokens.length + 1) (List Statement)) :=
  match tokens with
  | .symbol .rightBrace :: rest => .ok ⟨[], .symbol .rightBrace :: rest, by simp⟩
  | tokens => do
      let ⟨first, rest, _⟩ ← statement tokens
      let ⟨others, rest, _⟩ ← statements rest
      return ⟨first :: others, rest, by omega⟩
termination_by 3 * tokens.length + 2
decreasing_by all_goals omega

def block (tokens : List Token) : Except Failure (Parsed tokens.length (List Statement)) := do
  let ⟨_, rest, _⟩ ← expectSymbol .leftBrace tokens
  let ⟨body, rest, _⟩ ← statements rest
  let ⟨_, rest, _⟩ ← expectSymbol .rightBrace rest
  return ⟨body, rest, by omega⟩
termination_by 3 * tokens.length
decreasing_by omega

/-- The block behind `else`, or no statements if there is no `else`. -/
def alternative (tokens : List Token) :
    Except Failure (Parsed (tokens.length + 1) (List Statement)) :=
  match tokens with
  | .keyword .else :: rest => do
      let ⟨body, rest, _⟩ ← block rest
      return ⟨body, rest, by simp; omega⟩
  | tokens => .ok ⟨[], tokens, by simp⟩
termination_by 3 * tokens.length
decreasing_by simp

end

/-! Declarations and classes. -/

def returnType : Production ReturnType
  | .keyword .void :: rest => .ok ⟨.void, rest, by simp⟩
  | tokens => do
      let ⟨type, rest, _⟩ ← dataType tokens
      return ⟨.value type, rest, by omega⟩

def parameter : Production Parameter := fun tokens => do
  let ⟨type, rest, _⟩ ← dataType tokens
  let ⟨name, rest, _⟩ ← identifier rest
  return ⟨⟨type, name⟩, rest, by omega⟩

/-- The parameters of a subroutine, up to its closing parenthesis. -/
def parameters (tokens : List Token) :
    Except Failure (Parsed (tokens.length + 1) (List Parameter)) :=
  match tokens with
  | .symbol .rightParen :: rest => .ok ⟨[], .symbol .rightParen :: rest, by simp⟩
  | tokens => do
      let ⟨found, rest, _⟩ ← commaSeparated parameter tokens
      return ⟨found, rest, by omega⟩

def memberKind? : Token → Option MemberKind
  | .keyword (.member kind) => some kind
  | _ => none

def startsMember (token : Token) : Bool := (memberKind? token).isSome

def memberDec : Production MemberDec := fun tokens => do
  let ⟨kind, rest, _⟩ ← kindToken .memberKind memberKind? tokens
  let ⟨type, rest, _⟩ ← dataType rest
  let ⟨names, rest, _⟩ ← nameList rest
  return ⟨⟨kind, type, names⟩, rest, by omega⟩

/-- A declaration of locals, behind its keyword. -/
def localDec : Production LocalDec := fun tokens => do
  let ⟨type, rest, _⟩ ← dataType tokens
  let ⟨names, rest, _⟩ ← nameList rest
  return ⟨⟨type, names⟩, rest, by omega⟩

def subroutineKind? : Token → Option SubroutineKind
  | .keyword (.subroutine kind) => some kind
  | _ => none

def startsSubroutine (token : Token) : Bool := (subroutineKind? token).isSome

/-- The locals and the statements of a subroutine, in braces. -/
def subroutineBody : Production (List LocalDec × List Statement) := fun tokens => do
  let ⟨_, rest, _⟩ ← expectSymbol .leftBrace tokens
  let ⟨locals, rest, _⟩ ← many (· == .keyword .var) (skipping localDec) rest
  let ⟨body, rest, _⟩ ← statements rest
  let ⟨_, rest, _⟩ ← expectSymbol .rightBrace rest
  return ⟨(locals, body), rest, by omega⟩

def subroutineDec : Production Subroutine := fun tokens => do
  let ⟨kind, rest, _⟩ ← kindToken .subroutineKind subroutineKind? tokens
  let ⟨returnType, rest, _⟩ ← returnType rest
  let ⟨name, rest, _⟩ ← identifier rest
  let ⟨_, rest, _⟩ ← expectSymbol .leftParen rest
  let ⟨parameters, rest, _⟩ ← parameters rest
  let ⟨_, rest, _⟩ ← expectSymbol .rightParen rest
  let ⟨(locals, body), rest, _⟩ ← subroutineBody rest
  return ⟨⟨kind, returnType, name, parameters, locals, body⟩, rest, by omega⟩

def classDec : Production Class := fun tokens => do
  let ⟨_, rest, _⟩ ← expectKeyword .cls tokens
  let ⟨name, rest, _⟩ ← identifier rest
  let ⟨_, rest, _⟩ ← expectSymbol .leftBrace rest
  let ⟨members, rest, _⟩ ← many startsMember memberDec rest
  let ⟨subroutines, rest, _⟩ ← many startsSubroutine subroutineDec rest
  let ⟨_, rest, _⟩ ← expectSymbol .rightBrace rest
  return ⟨⟨name, members, subroutines⟩, rest, by omega⟩

end ClassLang.Grammar
