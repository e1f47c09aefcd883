import ClassLang.Scope.Signature

/-!
The library that generated code calls: memory for new objects, multiplication and division,
and strings.
-/

namespace ClassLang

namespace Library

def allocate : String := "Memory.alloc"

def multiply : String := "Math.multiply"

def divide : String := "Math.divide"

def newString : String := "String.new"

def appendChar : String := "String.appendChar"

def signatures : List (String × Signature) :=
  [(allocate, ⟨.value (.object "Array"), .function, 1⟩),
   ("Memory.deAlloc", ⟨.void, .function, 1⟩),
   (multiply, ⟨.value (.primitive .int), .function, 2⟩),
   (divide, ⟨.value (.primitive .int), .function, 2⟩),
   (newString, ⟨.value (.object "String"), .constructor, 1⟩),
   (appendChar, ⟨.value (.object "String"), .method, 1⟩)]

end Library

/-- Make the library known, except where a class has defined a subroutine of the same name. -/
def SignatureTable.addLibrary (table : SignatureTable) : SignatureTable :=
  table.insertDefaults Library.signatures

end ClassLang
