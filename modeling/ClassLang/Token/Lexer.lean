import ClassLang.Comment
import ClassLang.Text.Blank
import ClassLang.Text.Numeric
import ClassLang.Token

/-!
From source text to tokens.

Comments go first. Blanks separate, a quote opens a string if another quote follows, ASCII
digits make numbers, and letters of any script or `_` start words. A character that fits
nowhere separates like a blank, and so does a quote that nothing closes.
-/

namespace ClassLang.Token

open Text

def startsWord (c : Char) : Bool := isAlphabetic c || c == '_'

def continuesWord (c : Char) : Bool := isAlphanumeric c || c == '_'

/-- The number that decimal digits stand for, modulo `2 ^ 32`. -/
def decimal (digits : List Char) : UInt32 :=
  digits.foldl (fun value digit => value * 10 + UInt32.ofNat (digit.toNat - '0'.toNat)) 0

/-- The first token of a text that starts with the given character, if these characters make
one. -/
def cut : Cut (Option Token) := fun c rest =>
  if isBlank c then
    (none, 0)
  else if c = '"' then
    if '"' ∈ rest then
      let text := rest.takeWhile (· ≠ '"')
      (some (.string (String.ofList text)), text.length + 1)
    else
      (none, 0)
  else if c.isDigit then
    let digits := rest.takeWhile Char.isDigit
    (some (.int (decimal (c :: digits))), digits.length)
  else if startsWord c then
    let word := rest.takeWhile continuesWord
    (some (ofWord (String.ofList (c :: word))), word.length)
  else
    ((Symbol.ofChar? c).map .symbol, 0)

/-- The tokens of a text without comments. -/
def lex (text : List Char) : List Token :=
  (pieces cut text).filterMap id

/-- The tokens of a source text. -/
def tokenize (source : String) : List Token :=
  lex (Comment.strip source).toList

end ClassLang.Token
