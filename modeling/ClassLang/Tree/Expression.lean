import ClassLang.Vocabulary

/-!
Terms, calls and expressions.

An expression is flat: terms and operators stand in reading order. Nothing here says that they
alternate; that is what the grammar ensures and what code generation checks.
-/

namespace ClassLang

mutual

inductive Term where
  | int (value : UInt32)
  | string (text : String)
  | constant (value : Constant)
  | var (name : String)
  | item (array : String) (index : List Element)
  | paren (inner : List Element)
  | unary (op : UnaryOp) (operand : Term)
  | call (call : Call)

inductive Element where
  | term (term : Term)
  | op (op : BinaryOp)

/-- The receiver, if there is one, names a variable or a class. -/
inductive Call where
  | mk (receiver : Option String) (name : String) (arguments : List (List Element))

end

abbrev Expression : Type := List Element

namespace Call

def receiver : Call → Option String
  | .mk receiver _ _ => receiver

def name : Call → String
  | .mk _ name _ => name

def arguments : Call → List Expression
  | .mk _ _ arguments => arguments

end Call

mutual

def Term.same : Term → Term → Bool
  | .int a, .int b => a == b
  | .string a, .string b => a == b
  | .constant a, .constant b => a == b
  | .var a, .var b => a == b
  | .item a i, .item b j => a == b && Element.sameAll i j
  | .paren a, .paren b => Element.sameAll a b
  | .unary o a, .unary p b => o == p && a.same b
  | .call a, .call b => a.same b
  | _, _ => false

def Element.same : Element → Element → Bool
  | .term a, .term b => a.same b
  | .op a, .op b => a == b
  | _, _ => false

def Element.sameAll : List Element → List Element → Bool
  | [], [] => true
  | a :: as, b :: bs => a.same b && Element.sameAll as bs
  | _, _ => false

def Call.same : Call → Call → Bool
  | .mk r n as, .mk s m bs => r == s && n == m && Call.sameArguments as bs

def Call.sameArguments : List (List Element) → List (List Element) → Bool
  | [], [] => true
  | a :: as, b :: bs => Element.sameAll a b && Call.sameArguments as bs
  | _, _ => false

end

mutual

theorem Term.same_iff : (a b : Term) → (a.same b = true ↔ a = b)
  | .int _, b => by cases b <;> simp [Term.same]
  | .string _, b => by cases b <;> simp [Term.same]
  | .constant _, b => by cases b <;> simp [Term.same]
  | .var _, b => by cases b <;> simp [Term.same]
  | .item _ index, b => by cases b <;> simp [Term.same, Element.sameAll_iff index]
  | .paren inner, b => by cases b <;> simp [Term.same, Element.sameAll_iff inner]
  | .unary _ operand, b => by cases b <;> simp [Term.same, Term.same_iff operand]
  | .call call, b => by cases b <;> simp [Term.same, Call.same_iff call]

theorem Element.same_iff : (a b : Element) → (a.same b = true ↔ a = b)
  | .term term, b => by cases b <;> simp [Element.same, Term.same_iff term]
  | .op _, b => by cases b <;> simp [Element.same]

theorem Element.sameAll_iff : (a b : List Element) → (Element.sameAll a b = true ↔ a = b)
  | [], b => by cases b <;> simp [Element.sameAll]
  | first :: rest, b => by
      cases b <;> simp [Element.sameAll, Element.same_iff first, Element.sameAll_iff rest]

theorem Call.same_iff : (a b : Call) → (a.same b = true ↔ a = b)
  | .mk _ _ arguments, b => by
      cases b; simp [Call.same, Call.sameArguments_iff arguments, and_assoc]

theorem Call.sameArguments_iff :
    (a b : List (List Element)) → (Call.sameArguments a b = true ↔ a = b)
  | [], b => by cases b <;> simp [Call.sameArguments]
  | first :: rest, b => by
      cases b <;>
        simp [Call.sameArguments, Element.sameAll_iff first, Call.sameArguments_iff rest]

end

instance : DecidableEq Term := fun a b => decidable_of_iff _ (Term.same_iff a b)

instance : DecidableEq Element := fun a b => decidable_of_iff _ (Element.same_iff a b)

instance : DecidableEq Call := fun a b => decidable_of_iff _ (Call.same_iff a b)

end ClassLang
