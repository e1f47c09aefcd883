import ClassLang.Tree.Expression

/-!
Statements. An `if` without `else` has an empty second branch.
-/

namespace ClassLang

inductive Statement where
  | let (name : String) (index : Option Expression) (value : Expression)
  | if (condition : Expression) (thenBranch elseBranch : List Statement)
  | while (condition : Expression) (body : List Statement)
  | do (call : Call)
  | return (value : Option Expression)

namespace Statement

mutual

def same : Statement → Statement → Bool
  | .let a i v, .let b j w => a == b && i == j && v == w
  | .if c t e, .if d u f => c == d && sameAll t u && sameAll e f
  | .while c b, .while d e => c == d && sameAll b e
  | .do a, .do b => a == b
  | .return a, .return b => a == b
  | _, _ => false

def sameAll : List Statement → List Statement → Bool
  | [], [] => true
  | a :: as, b :: bs => a.same b && sameAll as bs
  | _, _ => false

end

mutual

theorem same_iff : (a b : Statement) → (a.same b = true ↔ a = b)
  | .let .., b => by cases b <;> simp [same, and_assoc]
  | .if _ thenBranch elseBranch, b => by
      cases b <;> simp [same, sameAll_iff thenBranch, sameAll_iff elseBranch, and_assoc]
  | .while _ body, b => by cases b <;> simp [same, sameAll_iff body]
  | .do _, b => by cases b <;> simp [same]
  | .return _, b => by cases b <;> simp [same]

theorem sameAll_iff : (a b : List Statement) → (sameAll a b = true ↔ a = b)
  | [], b => by cases b <;> simp [sameAll]
  | first :: rest, b => by cases b <;> simp [sameAll, same_iff first, sameAll_iff rest]

end

instance : DecidableEq Statement := fun a b => decidable_of_iff _ (same_iff a b)

end Statement

end ClassLang
