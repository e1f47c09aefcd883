/-!
Paths as text. Slashes divide a path into parts. Empty parts and `.` do not count, except as
text that is kept, and `..` is not a name.
-/

namespace ClassLang.Path

/-- The texts between slashes. -/
def splitSlash : List Char → List (List Char)
  | [] => [[]]
  | c :: rest =>
      if c = '/' then
        [] :: splitSlash rest
      else
        match splitSlash rest with
        | [] => [[c]]
        | part :: parts => (c :: part) :: parts

def parts (path : String) : List String :=
  (splitSlash path.toList).map String.ofList

/-- Whether a part leaves a path where it is. -/
def isStay (part : String) : Bool := part = "" || part = "."

/-- The first part, and of the others those that count. -/
def countedParts (path : String) : List String :=
  match parts path with
  | [] => []
  | first :: rest => first :: rest.filter (!isStay ·)

/-- The last part that counts, if it is a name, and the parts before it. -/
def splitName? (path : String) : Option (List String × String) :=
  match (parts path).reverse.dropWhile isStay with
  | [] => none
  | name :: before => if name = ".." then none else some (before.reverse, name)

def fileName? (path : String) : Option String := (splitName? path).map (·.2)

/-- A name without its extension, and the extension: what follows the last dot, if anything
stands before that dot. -/
def splitExtension (name : String) : String × Option String :=
  let reversed := name.toList.reverse
  match reversed.dropWhile (· ≠ '.') with
  | [] => (name, none)
  | _ :: [] => (name, none)
  | _ :: stem =>
      (String.ofList stem.reverse, some (String.ofList (reversed.takeWhile (· ≠ '.')).reverse))

def extension? (path : String) : Option String :=
  (fileName? path).bind fun name => (splitExtension name).2

/-- End the path with its last name, under the given extension. A path without a name stays. -/
def setExtension (path extension : String) : String :=
  match splitName? path with
  | none => path
  | some (before, name) =>
      "/".intercalate (before ++ [(splitExtension name).1 ++ "." ++ extension])

/-- Cut as many characters off the path as its extension has, and set the extension of what is
left. -/
def withExtension (path extension : String) : String :=
  match extension? path with
  | none => setExtension path extension
  | some old =>
      setExtension (String.ofList (path.toList.take (path.length - old.length))) extension

/-- The path of a name in a directory. -/
def join (directory name : String) : String :=
  if directory = "" ∨ directory.toList.getLast? = some '/' then directory ++ name
  else directory ++ "/" ++ name

/-- The directories on the way along the parts from a directory, the last one first, put before
those that are known. Where the way ends is not one of them. -/
def passed (directory : String) (known : List String) : List String → List String
  | [] => known
  | part :: rest => passed (join directory part) (directory :: known) rest

/-- The directories above a path, the nearest first. -/
def above (path : String) : List String :=
  match countedParts path with
  | [] => []
  | first :: rest => passed (if first = "" then "/" else first) [] rest

end ClassLang.Path
