/-!
The fixed words and marks of the language, grouped by what they stand for.
-/

namespace ClassLang

inductive Primitive where
  | int
  | char
  | boolean
  deriving DecidableEq, Repr

/-- The type of a variable: a primitive type, or a class by its name. -/
inductive DataType where
  | primitive (type : Primitive)
  | object (className : String)
  deriving DecidableEq, Repr

inductive ReturnType where
  | void
  | value (type : DataType)
  deriving DecidableEq, Repr

/-- Class variables are shared by the class or belong to each object. -/
inductive MemberKind where
  | static
  | field
  deriving DecidableEq, Repr

inductive SubroutineKind where
  | constructor
  | function
  | method
  deriving DecidableEq, Repr

/-- What a name stands for: a class variable of either kind, a parameter, or a local variable. -/
inductive Storage where
  | static
  | field
  | argument
  | local
  deriving DecidableEq, Repr

inductive Constant where
  | boolean (value : Bool)
  | null
  | this
  deriving DecidableEq, Repr

inductive Keyword where
  | cls
  | member (kind : MemberKind)
  | subroutine (kind : SubroutineKind)
  | var
  | primitive (type : Primitive)
  | void
  | constant (value : Constant)
  | let
  | do
  | if
  | else
  | while
  | return
  deriving DecidableEq, Repr

inductive Symbol where
  | leftBrace
  | rightBrace
  | leftParen
  | rightParen
  | leftBracket
  | rightBracket
  | dot
  | comma
  | semicolon
  | plus
  | minus
  | star
  | slash
  | ampersand
  | pipe
  | less
  | greater
  | equal
  | tilde
  deriving DecidableEq, Repr

inductive UnaryOp where
  | negate
  | not
  deriving DecidableEq, Repr

inductive BinaryOp where
  | add
  | subtract
  | multiply
  | divide
  | and
  | or
  | less
  | greater
  | equal
  deriving DecidableEq, Repr

def Primitive.word : Primitive → String
  | .int => "int"
  | .char => "char"
  | .boolean => "boolean"

namespace DataType

def word : DataType → String
  | .primitive type => type.word
  | .object className => className

def className? : DataType → Option String
  | .primitive _ => none
  | .object className => some className

end DataType

def ReturnType.word : ReturnType → String
  | .void => "void"
  | .value type => type.word

def MemberKind.word : MemberKind → String
  | .static => "static"
  | .field => "field"

def MemberKind.storage : MemberKind → Storage
  | .static => .static
  | .field => .field

def Storage.word : Storage → String
  | .static => "static"
  | .field => "field"
  | .argument => "argument"
  | .local => "local"

def SubroutineKind.word : SubroutineKind → String
  | .constructor => "constructor"
  | .function => "function"
  | .method => "method"

def Constant.word : Constant → String
  | .boolean true => "true"
  | .boolean false => "false"
  | .null => "null"
  | .this => "this"

namespace Keyword

def word : Keyword → String
  | .cls => "class"
  | .member kind => kind.word
  | .subroutine kind => kind.word
  | .var => "var"
  | .primitive type => type.word
  | .void => "void"
  | .constant value => value.word
  | .let => "let"
  | .do => "do"
  | .if => "if"
  | .else => "else"
  | .while => "while"
  | .return => "return"

def all : List Keyword :=
  [.cls, .subroutine .constructor, .subroutine .function, .subroutine .method,
   .member .field, .member .static, .var, .primitive .int, .primitive .char,
   .primitive .boolean, .void, .constant (.boolean true), .constant (.boolean false),
   .constant .null, .constant .this, .let, .do, .if, .else, .while, .return]

/-- The keyword that a word spells, if it spells one. -/
def ofWord? (word : String) : Option Keyword :=
  all.find? (·.word == word)

theorem mem_all (keyword : Keyword) : keyword ∈ all := by
  rcases keyword with _ | ⟨_ | _⟩ | ⟨_ | _ | _⟩ | _ | ⟨_ | _ | _⟩ | _ |
    ⟨⟨_ | _⟩ | _ | _⟩ | _ | _ | _ | _ | _ | _ <;> decide

@[simp] theorem ofWord?_word (keyword : Keyword) : ofWord? keyword.word = some keyword := by
  rcases keyword with _ | ⟨_ | _⟩ | ⟨_ | _ | _⟩ | _ | ⟨_ | _ | _⟩ | _ |
    ⟨⟨_ | _⟩ | _ | _⟩ | _ | _ | _ | _ | _ | _ <;> decide

theorem ofWord?_eq_some_iff {word : String} {keyword : Keyword} :
    ofWord? word = some keyword ↔ keyword.word = word := by
  constructor
  · intro found
    simpa using List.find?_some found
  · rintro rfl
    exact ofWord?_word keyword

end Keyword

namespace Symbol

def char : Symbol → Char
  | .leftBrace => '{'
  | .rightBrace => '}'
  | .leftParen => '('
  | .rightParen => ')'
  | .leftBracket => '['
  | .rightBracket => ']'
  | .dot => '.'
  | .comma => ','
  | .semicolon => ';'
  | .plus => '+'
  | .minus => '-'
  | .star => '*'
  | .slash => '/'
  | .ampersand => '&'
  | .pipe => '|'
  | .less => '<'
  | .greater => '>'
  | .equal => '='
  | .tilde => '~'

def all : List Symbol :=
  [.leftBrace, .rightBrace, .leftParen, .rightParen, .leftBracket, .rightBracket, .dot, .comma,
   .semicolon, .plus, .minus, .star, .slash, .ampersand, .pipe, .less, .greater, .equal, .tilde]

/-- The symbol that a character spells, if it spells one. -/
def ofChar? (c : Char) : Option Symbol :=
  all.find? (·.char == c)

@[simp] theorem ofChar?_char (symbol : Symbol) : ofChar? symbol.char = some symbol := by
  cases symbol <;> decide

theorem ofChar?_eq_some_iff {c : Char} {symbol : Symbol} :
    ofChar? c = some symbol ↔ symbol.char = c := by
  constructor
  · intro found
    simpa using List.find?_some found
  · rintro rfl
    exact ofChar?_char symbol

end Symbol

def UnaryOp.symbol : UnaryOp → Symbol
  | .negate => .minus
  | .not => .tilde

namespace BinaryOp

def symbol : BinaryOp → Symbol
  | .add => .plus
  | .subtract => .minus
  | .multiply => .star
  | .divide => .slash
  | .and => .ampersand
  | .or => .pipe
  | .less => .less
  | .greater => .greater
  | .equal => .equal

/-- The operator that a symbol stands for between two terms. -/
def ofSymbol? : Symbol → Option BinaryOp
  | .plus => some .add
  | .minus => some .subtract
  | .star => some .multiply
  | .slash => some .divide
  | .ampersand => some .and
  | .pipe => some .or
  | .less => some .less
  | .greater => some .greater
  | .equal => some .equal
  | _ => none

theorem ofSymbol?_eq_some_iff {symbol : Symbol} {op : BinaryOp} :
    ofSymbol? symbol = some op ↔ op.symbol = symbol := by
  cases symbol <;> cases op <;> simp [ofSymbol?, BinaryOp.symbol]

end BinaryOp

end ClassLang
