import ClassLang.Grammar
import ClassLang.Token.Lexer

/-!
Reading expressions and classes.
-/

namespace ClassLang

/-- Read an expression off the front of the tokens. -/
def Expression.ofTokens (tokens : List Token) :
    Except Grammar.Failure (Expression × List Token) :=
  Grammar.outcome (Grammar.expression tokens)

namespace Class

/-- The class that the tokens spell. Nothing may follow it. -/
def ofTokens (tokens : List Token) : Except Grammar.Failure Class := do
  let ⟨cls, rest, _⟩ ← Grammar.classDec tokens
  if rest.isEmpty then return cls else throw ⟨.endOfInput, rest⟩

/-- The class that a source text spells. -/
def parse (source : String) : Except CompileError Class :=
  (ofTokens (Token.tokenize source)).mapError Grammar.Failure.error

end Class

end ClassLang
