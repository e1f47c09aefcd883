import ClassLang.Token
import ClassLang.Tree.Class

/-!
Which tokens spell which syntax tree. The rules follow the grammar of the language and say
nothing about how tokens are read.
-/

namespace ClassLang

variable {α : Type}

/-- One or more items with commas between them. -/
inductive Separated (item : List Token → α → Prop) : List Token → List α → Prop where
  | one {tokens value} : item tokens value → Separated item tokens [value]
  | more {tokens value rest values} : item tokens value → Separated item rest values →
      Separated item (tokens ++ .symbol .comma :: rest) (value :: values)

/-- Items with commas between them. There may be none. -/
inductive Listed (item : List Token → α → Prop) : List Token → List α → Prop where
  | none : Listed item [] []
  | some {tokens values} : Separated item tokens values → Listed item tokens values

/-- Items one after the other. There may be none. -/
inductive Sequence (item : List Token → α → Prop) : List Token → List α → Prop where
  | nil : Sequence item [] []
  | cons {tokens value rest values} : item tokens value → Sequence item rest values →
      Sequence item (tokens ++ rest) (value :: values)

mutual

inductive Term.Spelled : List Token → Term → Prop where
  | int (value) : Term.Spelled [.int value] (.int value)
  | string (text) : Term.Spelled [.string text] (.string text)
  | constant (value) : Term.Spelled [.keyword (.constant value)] (.constant value)
  | var (name) : Term.Spelled [.identifier name] (.var name)
  | item (array) {tokens index} : Expression.Spelled tokens index →
      Term.Spelled
        (.identifier array :: .symbol .leftBracket :: tokens ++ [.symbol .rightBracket])
        (.item array index)
  | paren {tokens inner} : Expression.Spelled tokens inner →
      Term.Spelled (.symbol .leftParen :: tokens ++ [.symbol .rightParen]) (.paren inner)
  | unary (op : UnaryOp) {tokens operand} : Term.Spelled tokens operand →
      Term.Spelled (.symbol op.symbol :: tokens) (.unary op operand)
  | call {tokens call} : Call.Spelled tokens call → Term.Spelled tokens (.call call)

/-- Terms with operators between them. -/
inductive Expression.Spelled : List Token → List Element → Prop where
  | term {tokens term} : Term.Spelled tokens term → Expression.Spelled tokens [.term term]
  | operation {tokens first} (op : BinaryOp) {rest elements} : Term.Spelled tokens first →
      Expression.Spelled rest elements →
      Expression.Spelled (tokens ++ .symbol op.symbol :: rest)
        (.term first :: .op op :: elements)

inductive Call.Spelled : List Token → Call → Prop where
  | own (name) {tokens arguments} : Listed Expression.Spelled tokens arguments →
      Call.Spelled
        (.identifier name :: .symbol .leftParen :: tokens ++ [.symbol .rightParen])
        (.mk none name arguments)
  | on (receiver name) {tokens arguments} : Listed Expression.Spelled tokens arguments →
      Call.Spelled
        (.identifier receiver :: .symbol .dot :: .identifier name :: .symbol .leftParen ::
          tokens ++ [.symbol .rightParen])
        (.mk (some receiver) name arguments)

end

/-- An `if` without `else` is an `if` with an empty second branch, which may also be written
out. -/
inductive Statement.Spelled : List Token → Statement → Prop where
  | let (name) {tokens value} : Expression.Spelled tokens value →
      Statement.Spelled
        (.keyword .let :: .identifier name :: .symbol .equal :: tokens ++ [.symbol .semicolon])
        (.let name none value)
  | letItem (name) {indexTokens index tokens value} : Expression.Spelled indexTokens index →
      Expression.Spelled tokens value →
      Statement.Spelled
        (.keyword .let :: .identifier name :: .symbol .leftBracket :: indexTokens ++
          .symbol .rightBracket :: .symbol .equal :: tokens ++ [.symbol .semicolon])
        (.let name (some index) value)
  | if {conditionTokens condition thenTokens thenBranch} :
      Expression.Spelled conditionTokens condition →
      Sequence Statement.Spelled thenTokens thenBranch →
      Statement.Spelled
        (.keyword .if :: .symbol .leftParen :: conditionTokens ++
          .symbol .rightParen :: .symbol .leftBrace :: thenTokens ++ [.symbol .rightBrace])
        (.if condition thenBranch [])
  | ifElse {conditionTokens condition thenTokens thenBranch elseTokens elseBranch} :
      Expression.Spelled conditionTokens condition →
      Sequence Statement.Spelled thenTokens thenBranch →
      Sequence Statement.Spelled elseTokens elseBranch →
      Statement.Spelled
        (.keyword .if :: .symbol .leftParen :: conditionTokens ++
          .symbol .rightParen :: .symbol .leftBrace :: thenTokens ++
          .symbol .rightBrace :: .keyword .else :: .symbol .leftBrace :: elseTokens ++
          [.symbol .rightBrace])
        (.if condition thenBranch elseBranch)
  | while {conditionTokens condition bodyTokens body} :
      Expression.Spelled conditionTokens condition →
      Sequence Statement.Spelled bodyTokens body →
      Statement.Spelled
        (.keyword .while :: .symbol .leftParen :: conditionTokens ++
          .symbol .rightParen :: .symbol .leftBrace :: bodyTokens ++ [.symbol .rightBrace])
        (.while condition body)
  | do {tokens call} : Call.Spelled tokens call →
      Statement.Spelled (.keyword .do :: tokens ++ [.symbol .semicolon]) (.do call)
  | return : Statement.Spelled [.keyword .return, .symbol .semicolon] (.return none)
  | returnValue {tokens value} : Expression.Spelled tokens value →
      Statement.Spelled (.keyword .return :: tokens ++ [.symbol .semicolon])
        (.return (some value))

def DataType.token : DataType → Token
  | .primitive type => .keyword (.primitive type)
  | .object className => .identifier className

def ReturnType.token : ReturnType → Token
  | .void => .keyword .void
  | .value type => type.token

/-- The token alone spells the name. -/
def SpelledName (tokens : List Token) (name : String) : Prop :=
  tokens = [.identifier name]

def Parameter.Spelled (tokens : List Token) (parameter : Parameter) : Prop :=
  tokens = [parameter.type.token, .identifier parameter.name]

inductive MemberDec.Spelled : List Token → MemberDec → Prop where
  | mk (kind) (type : DataType) {tokens names} : Separated SpelledName tokens names →
      MemberDec.Spelled
        (.keyword (.member kind) :: type.token :: tokens ++ [.symbol .semicolon])
        ⟨kind, type, names⟩

inductive LocalDec.Spelled : List Token → LocalDec → Prop where
  | mk (type : DataType) {tokens names} : Separated SpelledName tokens names →
      LocalDec.Spelled (.keyword .var :: type.token :: tokens ++ [.symbol .semicolon])
        ⟨type, names⟩

inductive Subroutine.Spelled : List Token → Subroutine → Prop where
  | mk (kind) (returnType : ReturnType) (name)
      {parameterTokens parameters localTokens locals bodyTokens body} :
      Listed Parameter.Spelled parameterTokens parameters →
      Sequence LocalDec.Spelled localTokens locals →
      Sequence Statement.Spelled bodyTokens body →
      Subroutine.Spelled
        (.keyword (.subroutine kind) :: returnType.token :: .identifier name ::
          .symbol .leftParen :: parameterTokens ++
          .symbol .rightParen :: .symbol .leftBrace :: localTokens ++ bodyTokens ++
          [.symbol .rightBrace])
        ⟨kind, returnType, name, parameters, locals, body⟩

inductive Class.Spelled : List Token → Class → Prop where
  | mk (name) {memberTokens members subroutineTokens subroutines} :
      Sequence MemberDec.Spelled memberTokens members →
      Sequence Subroutine.Spelled subroutineTokens subroutines →
      Class.Spelled
        (.keyword .cls :: .identifier name :: .symbol .leftBrace ::
          memberTokens ++ subroutineTokens ++ [.symbol .rightBrace])
        ⟨name, members, subroutines⟩

end ClassLang
