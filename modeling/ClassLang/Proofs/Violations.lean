import ClassLang.Scope.Signature
import ClassLang.Scope.Table
import Mathlib.Data.List.Dedup

/-!
The rules that a class must keep, whatever code it has. They are given as the list of everything
that breaks them: first among the class variables, and then subroutine by subroutine, among the
declarations and along the body.
-/

namespace ClassLang

/-- What the rules for the body of a subroutine refer to. -/
structure Site where
  cls : Class
  subroutine : Subroutine
  signatures : SignatureTable

namespace Site

def place (site : Site) : String :=
  qualifiedName site.cls.name site.subroutine.name

/-- The type of a variable. The subroutine's own declarations come before those of the class. -/
def type? (site : Site) (name : String) : Option DataType :=
  ((site.subroutine.declarations ++ site.cls.declarations).find? (·.name = name)).map (·.type)

/-- A variable must be declared. -/
def undeclared (site : Site) (name : String) : List CompileError :=
  if (site.type? name).isSome then [] else [.unresolved name site.place]

/-- A call of a known subroutine must supply the arguments that it takes. -/
def miscounted (site : Site) (className name : String) (supplied : Nat) : List CompileError :=
  match site.signatures.get? className name with
  | none => []
  | some signature =>
      if signature.parameters = supplied then []
      else [.arity (qualifiedName className name) signature.parameters supplied]

/-- A variable that receives a call must be an object. A receiver that is no variable names a
class. -/
def misdirected (site : Site) (receiver : Option String) (name : String) (supplied : Nat) :
    List CompileError :=
  match receiver with
  | none => site.miscounted site.cls.name name supplied
  | some receiver =>
      match site.type? receiver with
      | none => site.miscounted receiver name supplied
      | some (.object className) => site.miscounted className name supplied
      | some (.primitive type) => [.invalidReceiver receiver (.primitive type)]

/-- Terms and operators must alternate. -/
def broken (site : Site) : CompileError :=
  .unexpected "alternating terms and operators" ("malformed expression in `" ++ site.place ++ "`")

end Site

mutual

def Term.violations (site : Site) : Term → List CompileError
  | .int _ => []
  | .string _ => []
  | .constant _ => []
  | .var name => site.undeclared name
  | .item array index => site.undeclared array ++ Expression.violations site index
  | .paren inner => Expression.violations site inner
  | .unary _ operand => operand.violations site
  | .call call => call.violations site

def Expression.violations (site : Site) : List Element → List CompileError
  | [] => [.unexpected "expression" "nothing"]
  | .op _ :: _ => [site.broken]
  | .term first :: rest => first.violations site ++ Expression.operationsViolations site rest

/-- The violations behind the first term. Nothing is said of what stands behind the place where
the alternation stops. -/
def Expression.operationsViolations (site : Site) : List Element → List CompileError
  | [] => []
  | .op _ :: .term operand :: rest =>
      operand.violations site ++ Expression.operationsViolations site rest
  | _ => [site.broken]

def Call.violations (site : Site) : Call → List CompileError
  | .mk receiver name arguments =>
      site.misdirected receiver name arguments.length ++
        Call.argumentsViolations site arguments

def Call.argumentsViolations (site : Site) : List (List Element) → List CompileError
  | [] => []
  | first :: rest => Expression.violations site first ++ Call.argumentsViolations site rest

end

namespace Statement

mutual

def violations (site : Site) : Statement → List CompileError
  | .let name none value => site.undeclared name ++ Expression.violations site value
  | .let name (some index) value =>
      site.undeclared name ++ Expression.violations site index ++ Expression.violations site value
  | .if condition thenBranch elseBranch =>
      Expression.violations site condition ++ violationsAll site thenBranch ++
        violationsAll site elseBranch
  | .while condition body => Expression.violations site condition ++ violationsAll site body
  | .do call => call.violations site
  | .return none => []
  | .return (some value) => Expression.violations site value

def violationsAll (site : Site) : List Statement → List CompileError
  | [] => []
  | first :: rest => first.violations site ++ violationsAll site rest

end

end Statement

/-- The declarations of names that are already declared. -/
def repetitions (scope : String) (before : List String) : List Declaration → List CompileError
  | [] => []
  | declaration :: rest =>
      (if declaration.name ∈ before then [.duplicate declaration.name scope] else []) ++
        repetitions scope (before ++ [declaration.name]) rest

def Subroutine.violations (cls : Class) (signatures : SignatureTable) (subroutine : Subroutine) :
    List CompileError :=
  repetitions ("`" ++ qualifiedName cls.name subroutine.name ++ "`") [] subroutine.declarations ++
    Statement.violationsAll ⟨cls, subroutine, signatures⟩ subroutine.body

def Class.violations (cls : Class) (signatures : SignatureTable) : List CompileError :=
  repetitions ("class `" ++ cls.name ++ "`") [] cls.declarations ++
    cls.subroutines.flatMap (Subroutine.violations cls signatures)

/-- The names that the declarations give to a storage. -/
def namesIn (declarations : List Declaration) (storage : Storage) : List String :=
  (declarations.filter (·.storage = storage)).map (·.name)

/-- No storage gets more names than a table has room for. -/
def WithinCapacity (declarations : List Declaration) : Prop :=
  ∀ storage, (namesIn declarations storage).dedup.length ≤ SymbolTable.capacity

def Class.WithinCapacity (cls : Class) : Prop :=
  ClassLang.WithinCapacity cls.declarations ∧
    ∀ subroutine ∈ cls.subroutines, ClassLang.WithinCapacity subroutine.declarations

end ClassLang
