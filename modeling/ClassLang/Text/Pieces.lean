/-!
Cutting a text into consecutive pieces.

A cut looks at the first character of a text and at what follows it, and says what the first
piece stands for and how many further characters belong to it. So every piece takes at least
one character, no character is taken twice, and the pieces together take the whole text.
-/

namespace ClassLang.Text

variable {α : Type}

/-- How to cut the first piece off a text that starts with the given character: the value of
the piece, and the number of characters that it takes after the first. -/
abbrev Cut (α : Type) : Type := Char → List Char → α × Nat

/-- Cut a text up, once the given number of characters has been passed over. The values of
earlier pieces are kept last first. -/
def piecesFrom (cut : Cut α) (values : List α) : Nat → List Char → List α
  | _, [] => values.reverse
  | 0, c :: rest =>
      let piece := cut c rest
      piecesFrom cut (piece.1 :: values) piece.2 rest
  | pending + 1, _ :: rest => piecesFrom cut values pending rest

/-- The values of the pieces of a text, in order. -/
def pieces (cut : Cut α) (text : List Char) : List α :=
  piecesFrom cut [] 0 text

theorem piecesFrom_drop (cut : Cut α) (values : List α) (pending : Nat) (text : List Char) :
    piecesFrom cut values pending text = piecesFrom cut values 0 (text.drop pending) := by
  induction text generalizing pending with
  | nil => simp [piecesFrom]
  | cons c rest inductionHypothesis =>
      cases pending with
      | zero => rfl
      | succ pending => simp [piecesFrom, inductionHypothesis pending]

theorem piecesFrom_values (cut : Cut α) (values : List α) (pending : Nat) (text : List Char) :
    piecesFrom cut values pending text = values.reverse ++ piecesFrom cut [] pending text := by
  induction text generalizing pending values with
  | nil => simp [piecesFrom]
  | cons c rest inductionHypothesis =>
      cases pending with
      | zero =>
          simp only [piecesFrom]
          rw [inductionHypothesis (_ :: values), inductionHypothesis [_]]
          simp
      | succ pending => simp only [piecesFrom]; exact inductionHypothesis values pending

@[simp] theorem pieces_nil (cut : Cut α) : pieces cut [] = [] := rfl

theorem pieces_cons (cut : Cut α) (c : Char) (rest : List Char) :
    pieces cut (c :: rest) = (cut c rest).1 :: pieces cut (rest.drop (cut c rest).2) := by
  simp only [pieces, piecesFrom]
  rw [piecesFrom_drop, piecesFrom_values]
  rfl

/-- Where some pieces stand for nothing, the values of the others. -/
theorem filterMap_pieces_cons (cut : Cut (Option α)) (c : Char) (rest : List Char) :
    (pieces cut (c :: rest)).filterMap id =
      (cut c rest).1.toList ++ (pieces cut (rest.drop (cut c rest).2)).filterMap id := by
  rw [pieces_cons, List.filterMap_cons]
  cases (cut c rest).1 <;> rfl

/-- A property of all texts, if it passes from what stands behind the first piece of a text to the
whole of it. -/
@[elab_as_elim]
theorem pieces_induction (cut : Cut α) {motive : List Char → Prop} (nil : motive [])
    (piece : ∀ c rest, motive (rest.drop (cut c rest).2) → motive (c :: rest))
    (text : List Char) : motive text := by
  induction size : text.length using Nat.strongRecOn generalizing text with
  | ind size inductionHypothesis =>
      subst size
      cases text with
      | nil => exact nil
      | cons c rest =>
          apply piece
          refine inductionHypothesis _ ?_ _ rfl
          rw [List.length_drop, List.length_cons]
          omega

end ClassLang.Text
