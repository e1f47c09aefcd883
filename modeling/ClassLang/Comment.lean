import ClassLang.Text.Pieces

/-!
Comments. A line comment runs from `//` up to the end of the line, which stays; a block
comment runs from `/*` through the next `*/`, or to the end of the text if there is none.
-/

namespace ClassLang.Comment

open Text

/-- How far a block comment reaches into the text behind its opening mark, counted on from
`length`. -/
def blockLength (length : Nat) : List Char → Nat
  | [] => length
  | '*' :: '/' :: _ => length + 2
  | _ :: rest => blockLength (length + 1) rest

/-- A character outside a comment is kept, and a comment is one piece that keeps nothing. -/
def cut : Cut (Option Char)
  | '/', '/' :: rest => (none, (rest.takeWhile (· ≠ '\n')).length + 1)
  | '/', '*' :: rest => (none, blockLength 1 rest)
  | c, _ => (some c, 0)

/-- The text without its comments. -/
def strip (text : String) : String :=
  String.ofList ((pieces cut text.toList).filterMap id)

end ClassLang.Comment
