import ClassLang.Vocabulary

/-!
The tokens of a source text, and how a message names them.
-/

namespace ClassLang

inductive Token where
  | int (value : UInt32)
  | string (text : String)
  | keyword (keyword : Keyword)
  | symbol (symbol : Symbol)
  | identifier (name : String)
  deriving DecidableEq, Repr

namespace Token

/-- A word is a keyword if it spells one, and a name otherwise. -/
def ofWord (word : String) : Token :=
  match Keyword.ofWord? word with
  | some found => .keyword found
  | none => .identifier word

/-- How a message speaks of a token. -/
def describe : Token → String
  | .int value => toString value.toNat
  | .string text => s!"\"{text}\""
  | .keyword found => s!"`{found.word}`"
  | .symbol mark => s!"`{mark.char}`"
  | .identifier name => s!"identifier `{name}`"

end Token

end ClassLang
