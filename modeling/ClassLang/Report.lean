import ClassLang.Build.Error

/-!
Error reports, plain or in colour.
-/

namespace ClassLang

inductive Style where
  | plain
  | colored
  deriving DecidableEq, Repr

namespace Style

/-- The style to write in: a wish for colour that is not `0` wins, then any wish for none, and
else there is colour on a terminal unless it is switched off. -/
def choose (force noColor color : Option String) (terminal : Bool) : Style :=
  if force.any (· ≠ "0") then .colored
  else if noColor.isSome then .plain
  else if terminal && color.all (· ≠ "0") then .colored
  else .plain

def reset : String := "\x1b[0m"

/-- A text in the colours that the codes stand for. Where the text itself goes back to the
default, the colours are set again. -/
def paint (style : Style) (codes text : String) : String :=
  match style with
  | .plain => text
  | .colored =>
      let start := "\x1b[" ++ codes ++ "m"
      start ++ text.replace reset (reset ++ start) ++ reset

def bold (style : Style) (text : String) : String := style.paint "1" text

def red (style : Style) (text : String) : String := style.paint "31" text

def boldRed (style : Style) (text : String) : String := style.paint "1;31" text

def green (style : Style) (text : String) : String := style.paint "32" text

def boldGreen (style : Style) (text : String) : String := style.paint "1;32" text

def blue (style : Style) (text : String) : String := style.paint "94" text

end Style

namespace Report

/-- A number with at least four digits. -/
def fourDigits (number : Nat) : String :=
  let digits := toString number
  String.ofList (List.replicate (4 - digits.length) '0') ++ digits

def header (style : Style) (code : Nat) (title : String) : String :=
  style.boldRed ("error[E" ++ fourDigits code ++ "]") ++ ": " ++ style.bold title

def location (style : Style) (place : String) : String :=
  " " ++ style.blue "-->" ++ " " ++ place

def detail (style : Style) (message : String) : String :=
  "  " ++ style.blue "=" ++ " " ++ style.red message

def help (style : Style) (advice : String) : String :=
  "  " ++ style.green "help:" ++ " " ++ advice

def compileError (style : Style) (name : String) (error : CompileError) : String :=
  "\n".intercalate ([header style error.code error.title, location style name,
    "  " ++ style.blue "|", detail style error.message] ++
      (error.help?.map (help style)).toList)

/-- The code under which errors outside the classes are reported. -/
def fileCode : Nat := 100

def buildError (style : Style) : BuildError → String
  | .unit name error => compileError style name error
  | .file path error =>
      "\n".intercalate [header style fileCode "cannot access file", location style path,
        detail style error.message]
  | .noSources path =>
      "\n".intercalate [header style fileCode "no source units", location style path]

end Report

end ClassLang
