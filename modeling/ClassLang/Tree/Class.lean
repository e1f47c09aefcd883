import ClassLang.Tree.Statement

/-!
A class: its variables and its subroutines, in the order they were written.
-/

namespace ClassLang

structure MemberDec where
  kind : MemberKind
  type : DataType
  names : List String
  deriving DecidableEq

structure Parameter where
  type : DataType
  name : String
  deriving DecidableEq

structure LocalDec where
  type : DataType
  names : List String
  deriving DecidableEq

structure Subroutine where
  kind : SubroutineKind
  returnType : ReturnType
  name : String
  parameters : List Parameter
  locals : List LocalDec
  body : List Statement
  deriving DecidableEq

structure Class where
  name : String
  members : List MemberDec
  subroutines : List Subroutine
  deriving DecidableEq

/-- The name under which a subroutine is called from outside its class. -/
def qualifiedName (className subroutine : String) : String :=
  className ++ "." ++ subroutine

end ClassLang
