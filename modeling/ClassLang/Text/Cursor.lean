/-!
A cursor over a text: a position that reads forward, and that may be set anywhere.
-/

namespace ClassLang.Text

structure Cursor where
  text : List Char
  position : Nat := 0
  deriving DecidableEq, Repr

namespace Cursor

/-- Positions have sixty-four bits. -/
def lastPosition : Nat := 0xFFFFFFFFFFFFFFFF

def ofString (text : String) : Cursor := ⟨text.toList, 0⟩

/-- The text from the cursor on. It is empty when the cursor stands at or behind the end. -/
def rest (cursor : Cursor) : List Char := cursor.text.drop cursor.position

def atEnd (cursor : Cursor) : Bool := cursor.text.length ≤ cursor.position

def peek (cursor : Cursor) : Option Char := cursor.rest.head?

/-- The character after the next one, or that there is none. No position follows the last one,
so a cursor that stands there has no answer. -/
def peekNext? (cursor : Cursor) : Option (Option Char) :=
  if cursor.position < lastPosition then some cursor.rest.tail.head? else none

def seek (cursor : Cursor) (position : Nat) : Cursor := { cursor with position }

def skip (cursor : Cursor) (count : Nat) : Cursor := cursor.seek (cursor.position + count)

/-- Read one character. At the end nothing is read and the cursor stays. -/
def advance (cursor : Cursor) : Option Char × Cursor :=
  match cursor.peek with
  | some c => (some c, cursor.skip 1)
  | none => (none, cursor)

/-- Read the expected character if it comes next. -/
def advanceIf (expected : Char) (cursor : Cursor) : Bool × Cursor :=
  if cursor.peek = some expected then (true, cursor.skip 1) else (false, cursor)

/-- The part of the text between two positions, if both lie in the text and in this order. -/
def lexeme? (cursor : Cursor) (start stop : Nat) : Option String :=
  if start ≤ stop ∧ stop ≤ cursor.text.length then
    some (String.ofList ((cursor.text.drop start).take (stop - start)))
  else
    none

/-- Read the longest run of characters of a kind. A cursor behind the end has no lexeme to
give: it answers `none` and stays. -/
def advanceWhile (kind : Char → Bool) (cursor : Cursor) : Option String × Cursor :=
  let next := cursor.skip (cursor.rest.takeWhile kind).length
  (cursor.lexeme? cursor.position next.position, next)

/-- The position of the next occurrence of a character, from the cursor on. -/
def find? (cursor : Cursor) (c : Char) : Option Nat :=
  (cursor.rest.idxOf? c).map (cursor.position + ·)

@[simp] theorem atEnd_eq_true_iff (cursor : Cursor) :
    cursor.atEnd = true ↔ cursor.rest = [] := by
  simp [atEnd, rest]

end Cursor

end ClassLang.Text
