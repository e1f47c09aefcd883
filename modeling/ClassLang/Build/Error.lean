import ClassLang.Error

/-!
What can go wrong in a build: with a class, with a file, or with a directory that holds nothing
to build.
-/

namespace ClassLang

inductive FileError where
  | notFound
  | alreadyExists
  | notDirectory
  | isDirectory
  | nameTooLong
  | nullCharacter
  | notText
  | other (message : String)
  deriving DecidableEq, Repr

def FileError.message : FileError → String
  | .notFound => "No such file or directory (os error 2)"
  | .alreadyExists => "File exists (os error 17)"
  | .notDirectory => "Not a directory (os error 20)"
  | .isDirectory => "Is a directory (os error 21)"
  | .nameTooLong => "File name too long (os error 36)"
  | .nullCharacter => "file name contained an unexpected NUL byte"
  | .notText => "stream did not contain valid UTF-8"
  | .other text => text

inductive BuildError where
  | unit (name : String) (error : CompileError)
  | file (path : String) (error : FileError)
  | noSources (path : String)
  deriving DecidableEq, Repr

def BuildError.message : BuildError → String
  | .unit name error => name ++ ": " ++ error.message
  | .file path error => path ++ ": " ++ error.message
  | .noSources path => "no source units found in " ++ path

end ClassLang
