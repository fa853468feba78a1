import Scaffold.Bindings
import Scaffold.Path

namespace Scaffold

inductive Action
  | auto
  | copy
  | make
  | ignore
  deriving DecidableEq, Repr

def Action.ofName? : String → Option Action
  | "Auto" => some .auto
  | "Copy" => some .copy
  | "Make" => some .make
  | "Ignore" => some .ignore
  | _ => none

def Action.name : Action → String
  | .auto => "Auto"
  | .copy => "Copy"
  | .make => "Make"
  | .ignore => "Ignore"

/-- What is done with an entry, and the text that its new name is expanded from. With an empty text
it keeps its name. -/
structure FileRule where
  action : Action
  name : String
  deriving DecidableEq, Repr

structure Manifest where
  preCommand : Option String
  postCommand : Option String
  expandVariables : Bool
  files : Bindings FileRule
  vars : Bindings String
  deriving DecidableEq

namespace Manifest

def fileName : String := "makemake.json"

def empty : Manifest := ⟨none, none, false, ∅, ∅⟩

def canonicalKey (key : String) : String :=
  (Path.ofString (String.ofList (key.toList.map fun c => if c = '\\' then '/' else c))).text

def lookup (m : Manifest) (relative : String) : Option FileRule :=
  m.files.get? relative

inductive ProblemKind
  | notJson
  | notObject
  | notDictionary
  | notString
  | notBool
  | unclearBool
  | unknownAction
  deriving DecidableEq, Repr

structure Problem where
  kind : ProblemKind
  place : List String
  deriving DecidableEq, Repr

def ProblemKind.text : ProblemKind → String
  | .notJson => "invalid JSON"
  | .notObject => "an object is expected"
  | .notDictionary => "a dictionary is expected"
  | .notString => "a string is expected"
  | .notBool => "a boolean is expected"
  | .unclearBool => "the value is neither true nor false"
  | .unknownAction => "the action is unknown"

def Problem.text (p : Problem) : String :=
  if p.place = [] then p.kind.text else String.intercalate "." p.place ++ ": " ++ p.kind.text

end Manifest

end Scaffold
