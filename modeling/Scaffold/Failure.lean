import Scaffold.Expr.Reader
import Scaffold.FileSystem.Refusal
import Scaffold.Manifest.Basic
import Scaffold.Text.Quoted
import Scaffold.Text.Utf8

namespace Scaffold

/-- What goes wrong outside of the rules of templates: the file system refuses, bytes are no text,
or a value cannot be used as it is meant to. Where it is the working directory that is refused there
is no path to name. -/
inductive Obstacle
  | refused (r : Refusal) (path : String)
  | pipeInTheWay (path : Path)
  | linkNotRemoved
  | fileNotRemoved (path : Path)
  | undecodable (fault : Text.Utf8.Fault)
  | badTemplateName (name : String)
  | unknownHome
  | linkLoop (path : String)
  | endOfInput
  deriving DecidableEq

namespace Obstacle

def message : Obstacle → String
  | .refused r path =>
    match r.number? with
    | some n => "[Errno " ++ toString n ++ "] " ++ r.text ++
        if path = "" then "" else ": " ++ Text.quoted path
    | none => r.text
  | .pipeInTheWay path => "`" ++ path.text ++ "` is a named pipe"
  | .linkNotRemoved => "Cannot call rmtree on a symbolic link"
  | .fileNotRemoved path =>
    "[Errno 20] Not a directory: PosixPath(" ++ Text.quoted path.text ++ ")"
  | .undecodable f => f.message
  | .badTemplateName name => "Invalid template name: " ++ Text.quoted name
  | .unknownHome => "Could not determine home directory."
  | .linkLoop path => "Symlink loop from " ++ Text.quoted path
  | .endOfInput => ""

def isSystem : Obstacle → Bool
  | .refused r _ => r.number?.isSome
  | .pipeInTheWay _ | .linkNotRemoved | .fileNotRemoved _ => true
  | _ => false

def reason : Obstacle → String
  | .refused r _ => r.text
  | .fileNotRemoved _ => Refusal.notDirectory.text
  | o => o.message

end Obstacle

inductive HookFault
  | unparsable (reason : String)
  | noProgram
  | notStarted (reason : String)
  | exited (code : Int) (stderr : String)
  deriving DecidableEq, Repr

inductive ConfigFault
  | notJson
  | wrongKind (expected found : String) (place : String)
  | noTemplateField (place : String)
  | outOfRange (place : String)
  | notText (fault : Text.Utf8.Fault)
  deriving DecidableEq, Repr

inductive Failure
  | malformed (f : Expr.SyntaxFault)
  | unknownFunction (name : String)
  | surplusArguments (function : String)
  | unreadable (function : String) (path : Path) (cause : Obstacle)
  | copyFailed (source : Path) (cause : Obstacle) (dest : Path)
  | materializeFailed (source : Path) (cause : Obstacle) (dest : Path)
  | notText (reason : Text.Utf8.Reason) (path : Path)
  | unsupportedKind (path : Path)
  | noTemplateDirectory (path : Path)
  | outsideTemplate (path : Path)
  | badFileName (name : String) (dest : Path)
  | overDirectory (dest : Path)
  | manifestUnreadable (path : Path) (cause : Obstacle)
  | manifestInvalid (path : Path) (problems : List Manifest.Problem)
  | hook (command : String) (fault : HookFault)
  | configInvalid (path : Path) (fault : ConfigFault)
  | noTemplate (name : String)
  | templateExists (name : String)
  | noAlias (name : String)
  | badDefinition (text : String)
  | tooDeep
  | obstacle (o : Obstacle)
  deriving DecidableEq

def trimRight (s : String) : String :=
  String.ofList ((s.toList.reverse.dropWhile Text.isBlank).reverse)

def HookFault.message : HookFault → String
  | .unparsable reason => "cannot be parsed (" ++ reason ++ ")"
  | .noProgram => "is invalid, missing program"
  | .notStarted reason => "failed to start (" ++ reason ++ ")"
  | .exited code stderr =>
    "exited with code " ++ toString code ++
      if trimRight stderr = "" then "" else ":\n" ++ trimRight stderr

def placeText (place : String) : String :=
  if place = "$" then "" else " - at `" ++ place ++ "`"

def ConfigFault.message : ConfigFault → String
  | .notJson => "JSON is malformed"
  | .wrongKind expected found place =>
    "Expected `" ++ expected ++ "`, got `" ++ found ++ "`" ++ placeText place
  | .noTemplateField place => "Object missing required field `template`" ++ placeText place
  | .outOfRange place => "Number out of range" ++ placeText place
  | .notText fault => fault.message

namespace Failure

def message : Failure → String
  | .malformed f => f.message
  | .unknownFunction name => "unknown function '" ++ name ++ "'"
  | .surplusArguments function => "too many arguments to function '#" ++ function ++ "'"
  | .unreadable function path cause =>
    function ++ ": failed to read " ++ path.text ++ ": " ++ cause.message
  | .copyFailed source cause dest =>
    "Failed to copy " ++ source.text ++ " (" ++ cause.reason ++ "): " ++ dest.text
  | .materializeFailed source cause dest =>
    "Failed to materialize " ++ source.text ++ " (" ++ cause.reason ++ "): " ++ dest.text
  | .notText reason path => "File is not valid UTF-8 (" ++ reason.text ++ "): " ++ path.text
  | .unsupportedKind path => "Unsupported file type: " ++ path.text
  | .noTemplateDirectory path => "Template is not a directory: " ++ path.text
  | .outsideTemplate path => "Path is outside of the template: " ++ path.text
  | .badFileName name dest => "Invalid file name '" ++ name ++ "': " ++ dest.text
  | .overDirectory dest => "Destination is a directory: " ++ dest.text
  | .manifestUnreadable path cause => "Invalid manifest " ++ path.text ++ ": " ++ cause.reason
  | .manifestInvalid path problems =>
    "Invalid manifest " ++ path.text ++ ": " ++
      String.intercalate "; " (problems.map Manifest.Problem.text)
  | .hook command fault => "Command '" ++ command ++ "' " ++ fault.message
  | .configInvalid path fault => "Invalid config " ++ path.text ++ ": " ++ fault.message
  | .noTemplate name => "Template not found: " ++ name
  | .templateExists name => "Template already exists: " ++ name
  | .noAlias name => "Alias not found: " ++ name
  | .badDefinition text => "Invalid variable definition '" ++ text ++ "'"
  | .tooDeep => "maximum recursion depth exceeded"
  | .obstacle o => o.message

def isForeseen : Failure → Bool
  | .tooDeep | .obstacle _ => false
  | _ => true

end Failure

end Scaffold
