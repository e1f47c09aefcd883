import ClassLang.Error
import ClassLang.Scope.Update
import ClassLang.Tree.Class
import Std.Data.ExtTreeMap

/-!
Symbol tables: which storage each declared name stands for.

A table numbers the names of each storage from zero in the order of their declarations. A name
is declared at most once in a table, whatever its storage. Indices have sixteen bits, so a
storage holds at most `SymbolTable.capacity` names, and one more brings the compilation to a halt.
-/

namespace ClassLang

structure Declaration where
  name : String
  type : DataType
  storage : Storage
  deriving DecidableEq, Repr

/-- The variables of a class, in the order of their declarations. -/
def Class.declarations (cls : Class) : List Declaration :=
  cls.members.flatMap fun dec => dec.names.map fun name => ⟨name, dec.type, dec.kind.storage⟩

/-- The parameters and then the local variables of a subroutine. -/
def Subroutine.declarations (subroutine : Subroutine) : List Declaration :=
  subroutine.parameters.map (fun parameter => ⟨parameter.name, parameter.type, .argument⟩) ++
    subroutine.locals.flatMap fun dec => dec.names.map fun name => ⟨name, dec.type, .local⟩

/-- What a name is bound to: a type, a storage, and a place among the names of that storage. -/
structure Binding where
  type : DataType
  storage : Storage
  index : Nat
  deriving DecidableEq, Repr

/-- How many names each storage holds. -/
structure Tally where
  statics : Nat := 0
  fields : Nat := 0
  arguments : Nat := 0
  locals : Nat := 0
  deriving DecidableEq, Repr

namespace Tally

def count (tally : Tally) : Storage → Nat
  | .static => tally.statics
  | .field => tally.fields
  | .argument => tally.arguments
  | .local => tally.locals

def add (tally : Tally) : Storage → Tally
  | .static => { tally with statics := tally.statics + 1 }
  | .field => { tally with fields := tally.fields + 1 }
  | .argument => { tally with arguments := tally.arguments + 1 }
  | .local => { tally with locals := tally.locals + 1 }

@[simp] theorem count_add (tally : Tally) (added counted : Storage) :
    (tally.add added).count counted =
      if added = counted then tally.count counted + 1 else tally.count counted := by
  cases added <;> cases counted <;> rfl

end Tally

structure SymbolTable where
  /-- How a message speaks of the place that the table describes. -/
  scope : String
  bindings : Std.ExtTreeMap String Binding := ∅
  tally : Tally := {}

namespace SymbolTable

def capacity : Nat := 65535

def get? (table : SymbolTable) (name : String) : Option Binding :=
  table.bindings[name]?

def count (table : SymbolTable) (storage : Storage) : Nat :=
  table.tally.count storage

/-- Bind a new name to the next place of its storage. A table that cannot do so stays as it is. -/
def define (table : SymbolTable) (declaration : Declaration) :
    Update SymbolTable (Halt CompileError) :=
  if declaration.name ∈ table.bindings then
    (table, .error (.reported (.duplicate declaration.name table.scope)))
  else if table.count declaration.storage < capacity then
    ({ table with
      bindings := table.bindings.insert declaration.name
        ⟨declaration.type, declaration.storage, table.count declaration.storage⟩
      tally := table.tally.add declaration.storage }, .ok ())
  else
    (table, .error .overflow)

/-- A definition binds its name and leaves every other name as it was. -/
theorem get?_define {table next : SymbolTable} {declaration : Declaration}
    (defined : table.define declaration = (next, .ok ())) (name : String) :
    next.get? name =
      if declaration.name = name then
        some ⟨declaration.type, declaration.storage, table.count declaration.storage⟩
      else
        table.get? name := by
  unfold define at defined
  split at defined
  · cases defined
  · split at defined
    · cases defined
      simp [get?, Std.ExtTreeMap.getElem?_insert]
    · cases defined

theorem count_define {table next : SymbolTable} {declaration : Declaration}
    (defined : table.define declaration = (next, .ok ())) (storage : Storage) :
    next.count storage =
      if declaration.storage = storage then table.count storage + 1 else table.count storage := by
  unfold define at defined
  split at defined
  · cases defined
  · split at defined
    · cases defined
      simp [count]
    · cases defined

def defineAll (table : SymbolTable) (declarations : List Declaration) :
    Update SymbolTable (Halt CompileError) :=
  Update.each define table declarations

def ofClass (cls : Class) : Except (Halt CompileError) SymbolTable :=
  (defineAll { scope := "class `" ++ cls.name ++ "`" } cls.declarations).result

def ofSubroutine (className : String) (subroutine : Subroutine) :
    Except (Halt CompileError) SymbolTable :=
  (defineAll { scope := "`" ++ qualifiedName className subroutine.name ++ "`" }
    subroutine.declarations).result

end SymbolTable

/-- The names that a subroutine sees: its own, and those of its class. -/
structure Scope where
  members : SymbolTable
  own : SymbolTable

/-- A subroutine's own name hides a class variable of that name. -/
def Scope.get? (scope : Scope) (name : String) : Option Binding :=
  scope.own.get? name <|> scope.members.get? name

end ClassLang
