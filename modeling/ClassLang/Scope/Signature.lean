import ClassLang.Error
import ClassLang.Scope.Update
import ClassLang.Tree.Class
import Std.Data.ExtTreeMap

/-!
Signatures: what a call needs to know of a subroutine.

A table is keyed by qualified names. The first entry under a name stays: a second one is an
error if it comes from a class, and is passed over if it comes from the library.
-/

namespace ClassLang

structure Signature where
  returnType : ReturnType
  kind : SubroutineKind
  /-- Explicit parameters, without the receiver of a method. -/
  parameters : Nat
  deriving DecidableEq, Repr

def Subroutine.signature (subroutine : Subroutine) : Signature :=
  ⟨subroutine.returnType, subroutine.kind, subroutine.parameters.length⟩

/-- The qualified names of the subroutines of a class, with their signatures. -/
def Class.signatures (cls : Class) : List (String × Signature) :=
  cls.subroutines.map fun subroutine =>
    (qualifiedName cls.name subroutine.name, subroutine.signature)

structure SignatureTable where
  entries : Std.ExtTreeMap String Signature := ∅

namespace SignatureTable

def get? (table : SignatureTable) (className subroutine : String) : Option Signature :=
  table.entries[qualifiedName className subroutine]?

/-- Add an entry under a new name. A table that has the name stays as it is. -/
def insert (table : SignatureTable) (name : String) (signature : Signature) :
    Update SignatureTable CompileError :=
  if name ∈ table.entries then
    (table, .error (.duplicate name "the build"))
  else
    (⟨table.entries.insert name signature⟩, .ok ())

/-- Add an entry unless its name is taken. -/
def insertDefault (table : SignatureTable) (name : String) (signature : Signature) :
    SignatureTable :=
  ⟨table.entries.insertIfNew name signature⟩

theorem getElem?_insert {table next : SignatureTable} {name : String} {signature : Signature}
    (inserted : table.insert name signature = (next, .ok ())) (found : String) :
    next.entries[found]? = if name = found then some signature else table.entries[found]? := by
  unfold insert at inserted
  split at inserted
  · cases inserted
  · cases inserted
    simp [Std.ExtTreeMap.getElem?_insert]

theorem getElem?_insertDefault (table : SignatureTable) (name : String) (signature : Signature)
    (found : String) :
    (table.insertDefault name signature).entries[found]? =
      if name = found ∧ name ∉ table.entries then some signature else table.entries[found]? := by
  simp [insertDefault, Std.ExtTreeMap.getElem?_insertIfNew]

/-- Add entries up to the first whose name is taken, and say which that is. -/
def insertAll (table : SignatureTable) (entries : List (String × Signature)) :
    Update SignatureTable CompileError :=
  Update.each (fun table entry => table.insert entry.1 entry.2) table entries

def register (table : SignatureTable) (cls : Class) : Update SignatureTable CompileError :=
  table.insertAll cls.signatures

def insertDefaults (table : SignatureTable) (entries : List (String × Signature)) :
    SignatureTable :=
  entries.foldl (fun table entry => table.insertDefault entry.1 entry.2) table

end SignatureTable

end ClassLang
