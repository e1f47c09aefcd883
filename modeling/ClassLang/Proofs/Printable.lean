import ClassLang.Token.Lexer
import ClassLang.Tree.Class

/-!
Which syntax trees have a text that spells them: every name in them is a word and no keyword,
every declaration has a name, expressions alternate, and no string constant holds a quote or
the opening of a comment.
-/

namespace ClassLang

/-- A letter or `_`, and then letters, numbers and `_`. Keywords are no names. -/
def IsName (name : String) : Prop :=
  (∃ first rest, name.toList = first :: rest ∧ Token.startsWord first = true ∧
    ∀ c ∈ rest, Token.continuesWord c = true) ∧
  ∀ keyword ∈ Keyword.all, keyword.word ≠ name

/-- The text can stand between quotes. -/
def Quotable (text : String) : Prop :=
  '"' ∉ text.toList ∧ ¬ ['/', '/'] <:+: text.toList ∧ ¬ ['/', '*'] <:+: text.toList

mutual

def Term.Printable : Term → Prop
  | .int _ => True
  | .string text => Quotable text
  | .constant _ => True
  | .var name => IsName name
  | .item array index => IsName array ∧ Expression.Printable index
  | .paren inner => Expression.Printable inner
  | .unary _ operand => operand.Printable
  | .call call => call.Printable

/-- A term, or a term and an operator before another such expression. -/
def Expression.Printable : List Element → Prop
  | [.term last] => last.Printable
  | .term first :: .op _ :: rest => first.Printable ∧ Expression.Printable rest
  | _ => False

def Call.Printable : Call → Prop
  | .mk receiver name arguments =>
      (∀ named ∈ receiver, IsName named) ∧ IsName name ∧ Call.ArgumentsPrintable arguments

def Call.ArgumentsPrintable : List (List Element) → Prop
  | [] => True
  | first :: rest => Expression.Printable first ∧ Call.ArgumentsPrintable rest

end

namespace Statement

mutual

def Printable : Statement → Prop
  | .let name index value =>
      IsName name ∧ (∀ inside ∈ index, Expression.Printable inside) ∧ Expression.Printable value
  | .if condition thenBranch elseBranch =>
      Expression.Printable condition ∧ AllPrintable thenBranch ∧ AllPrintable elseBranch
  | .while condition body => Expression.Printable condition ∧ AllPrintable body
  | .do call => call.Printable
  | .return value => ∀ given ∈ value, Expression.Printable given

def AllPrintable : List Statement → Prop
  | [] => True
  | first :: rest => first.Printable ∧ AllPrintable rest

end

end Statement

def DataType.Printable : DataType → Prop
  | .primitive _ => True
  | .object className => IsName className

def ReturnType.Printable : ReturnType → Prop
  | .void => True
  | .value type => type.Printable

/-- At least one name, and nothing but names. -/
def NamesPrintable (names : List String) : Prop :=
  names ≠ [] ∧ ∀ name ∈ names, IsName name

def MemberDec.Printable (dec : MemberDec) : Prop :=
  dec.type.Printable ∧ NamesPrintable dec.names

def LocalDec.Printable (dec : LocalDec) : Prop :=
  dec.type.Printable ∧ NamesPrintable dec.names

def Parameter.Printable (parameter : Parameter) : Prop :=
  parameter.type.Printable ∧ IsName parameter.name

def Subroutine.Printable (subroutine : Subroutine) : Prop :=
  subroutine.returnType.Printable ∧ IsName subroutine.name ∧
    (∀ parameter ∈ subroutine.parameters, parameter.Printable) ∧
    (∀ dec ∈ subroutine.locals, dec.Printable) ∧ Statement.AllPrintable subroutine.body

def Class.Printable (cls : Class) : Prop :=
  IsName cls.name ∧ (∀ dec ∈ cls.members, dec.Printable) ∧
    ∀ subroutine ∈ cls.subroutines, subroutine.Printable

end ClassLang
