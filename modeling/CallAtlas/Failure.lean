import CallAtlas.Files
import CallAtlas.Syntax.Diagnostic

/-!
# Failures

All that can go wrong, with its wording.
-/

namespace CallAtlas

/-- What can be wrong with settings. -/
inductive SettingsProblem where
  /-- A format that does not exist, by its name in lower case. -/
  | unknownFormat (name : String)
  /-- A settings file that is no TOML document. -/
  | notToml
  /-- A value of a settings file that does not fit. -/
  | wrongValue (key : String)
  /-- A number too large for a settings file. -/
  | tooLarge (key : String)
deriving DecidableEq, Inhabited, Repr

namespace SettingsProblem

/-- The problem in words. -/
def message : SettingsProblem → String
  | unknownFormat name => "Unknown output format: " ++ name
  | notToml => "not a TOML document"
  | wrongValue key => "wrong value for " ++ key
  | tooLarge key => key ++ " is too large"

end SettingsProblem

/-- Why something could not be done. -/
inductive Failure where
  | syntaxError (d : Syntax.Diagnostic)
  /-- No tree could be made. -/
  | noTree
  | inputTooLarge (size limit : Nat)
  | nestingTooDeep (line limit : Nat)
  | duplicateFunction (name : String) (firstLine secondLine : Nat)
  | settings (problem : SettingsProblem)
  | file (error : FileError)
  /-- Data that does not describe what it should. -/
  | wrongData
deriving DecidableEq, Inhabited, Repr

namespace Failure

/-- The failure in words. -/
def message : Failure → String
  | syntaxError d => "Syntax error: " ++ d.display
  | noTree => "Parser error: Failed to parse Python code"
  | inputTooLarge size limit =>
    "Input of " ++ toString size ++ " bytes exceeds the " ++ toString limit ++ " byte limit"
  | nestingTooDeep line limit =>
    "Nesting deeper than " ++ toString limit ++ " levels at line " ++ toString line
  | duplicateFunction name firstLine secondLine =>
    "Function \x60" ++ name ++ "\x60 is defined more than once (lines " ++ toString firstLine ++
      " and " ++ toString secondLine ++ ")"
  | settings problem => "Configuration error: " ++ problem.message
  | file error => "IO error: " ++ error.message
  | wrongData => "Serialization error"

/-- Whether the program itself is at fault. -/
def isSyntax : Failure → Bool
  | syntaxError _ => true
  | _ => false

end Failure

end CallAtlas
