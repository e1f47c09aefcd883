import ClassLang.Tree.Class

/-!
The canonical text of a class and of its parts: one space around operators, four spaces for
each level of nesting, one line for each declaration and statement.
-/

namespace ClassLang

mutual

def Term.print : Term → String
  | .int value => toString value.toNat
  | .string text => "\"" ++ text ++ "\""
  | .constant value => value.word
  | .var name => name
  | .item array index => array ++ "[" ++ " ".intercalate (Element.prints index) ++ "]"
  | .paren inner => "(" ++ " ".intercalate (Element.prints inner) ++ ")"
  | .unary op operand => op.symbol.char.toString ++ operand.print
  | .call call => call.print

def Element.print : Element → String
  | .term term => term.print
  | .op op => op.symbol.char.toString

def Element.prints : List Element → List String
  | [] => []
  | element :: rest => element.print :: Element.prints rest

def Call.print : Call → String
  | .mk receiver name arguments =>
      receiver.elim "" (· ++ ".") ++ name ++
        "(" ++ ", ".intercalate (Call.printArguments arguments) ++ ")"

def Call.printArguments : List (List Element) → List String
  | [] => []
  | argument :: rest =>
      " ".intercalate (Element.prints argument) :: Call.printArguments rest

end

def Expression.print (expression : Expression) : String :=
  " ".intercalate (Element.prints expression)

/-- The blank space at the start of a line inside so many blocks. -/
def indent (depth : Nat) : String :=
  String.ofList (List.replicate (4 * depth) ' ')

namespace Statement

mutual

def print (depth : Nat) : Statement → String
  | .let name index value =>
      indent depth ++ "let " ++ name ++ index.elim "" (fun i => "[" ++ Expression.print i ++ "]") ++
        " = " ++ Expression.print value ++ ";\n"
  | .if condition thenBranch elseBranch =>
      indent depth ++ "if (" ++ Expression.print condition ++ ") \x7b\n" ++
        printAll (depth + 1) thenBranch ++
        (if elseBranch.isEmpty then ""
          else indent depth ++ "\x7d else \x7b\n" ++ printAll (depth + 1) elseBranch) ++
        indent depth ++ "\x7d\n"
  | .while condition body =>
      indent depth ++ "while (" ++ Expression.print condition ++ ") \x7b\n" ++
        printAll (depth + 1) body ++ indent depth ++ "\x7d\n"
  | .do call => indent depth ++ "do " ++ call.print ++ ";\n"
  | .return value =>
      indent depth ++ "return" ++ value.elim "" (fun e => " " ++ Expression.print e) ++ ";\n"

def printAll (depth : Nat) : List Statement → String
  | [] => ""
  | statement :: rest => statement.print depth ++ printAll depth rest

end

end Statement

def printNames (names : List String) : String :=
  ", ".intercalate names ++ ";\n"

def MemberDec.print (dec : MemberDec) : String :=
  indent 1 ++ dec.kind.word ++ " " ++ dec.type.word ++ " " ++ printNames dec.names

def LocalDec.print (dec : LocalDec) : String :=
  indent 2 ++ "var " ++ dec.type.word ++ " " ++ printNames dec.names

def Parameter.print (parameter : Parameter) : String :=
  parameter.type.word ++ " " ++ parameter.name

def Subroutine.print (subroutine : Subroutine) : String :=
  indent 1 ++ subroutine.kind.word ++ " " ++ subroutine.returnType.word ++ " " ++
    subroutine.name ++ "(" ++ ", ".intercalate (subroutine.parameters.map Parameter.print) ++
    ") \x7b\n" ++ String.join (subroutine.locals.map LocalDec.print) ++
    Statement.printAll 2 subroutine.body ++ indent 1 ++ "\x7d\n"

def Class.print (cls : Class) : String :=
  "class " ++ cls.name ++ " \x7b\n" ++ String.join (cls.members.map MemberDec.print) ++
    String.join (cls.subroutines.map fun subroutine => "\n" ++ subroutine.print) ++ "\x7d\n"

end ClassLang
