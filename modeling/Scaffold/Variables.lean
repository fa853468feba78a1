import Scaffold.Expr.Evaluate
import Scaffold.FileSystem.Canonical

/-!
The variables of a load, in three layers: the defaults of the manifest, what is computed for every
load, and what the caller says. Later layers win.
-/

namespace Scaffold.Variables

def hostPlatform : String := "linux"

def systemName (platform : String) : String :=
  if "linux".toList.isPrefixOf platform.toList then "linux"
  else if platform = "win32" ∨ platform = "cygwin" then "windows"
  else if platform = "darwin" then "macos"
  else if platform = "ios" then "ios"
  else if "freebsd".toList.isPrefixOf platform.toList then "freebsd"
  else platform

def detect (platform : Option String) : String :=
  match platform with
  | some "" | none => systemName hostPlatform
  | some p => systemName p

def flag? : String → Option String
  | "linux" => some "_LINUX"
  | "windows" => some "_WINDOWS"
  | "macos" => some "_MACOS"
  | "ios" => some "_IOS"
  | "freebsd" => some "_FREEBSD"
  | _ => none

/-- A relative path has no name where the working directory has been taken away. -/
def directoryName (fs : FileSystem) (dest : Path) : Except Failure String :=
  if dest.hasNul then .error (.obstacle (.refused .embeddedNul dest.text))
  else if dest.isAbsolute = false ∧ fs.get? fs.workDir ≠ some .directory then
    .error (.obstacle (.refused .noEntry ""))
  else
    let real := fs.canonical dest
    if fs.loops real then .error (.obstacle (.linkLoop real.text)) else .ok real.name

def computed (fs : FileSystem) (dest : Path) (platform : Option String) :
    Except Failure (Bindings String) :=
  (directoryName fs dest).map fun dir =>
    let os := detect platform
    Bindings.ofList ([("_OS", os), ("_", ""), ("_PDIR", dir)] ++
      (flag? os).toList.map (·, "true"))

def mergeAll (layers : List (Bindings String)) : Bindings String :=
  layers.foldl Bindings.merge ∅

def resolve (fs : FileSystem) (m : Manifest) (caller : Bindings String) (dest root : Path)
    (platform : Option String) : Except Failure (Bindings String) :=
  match computed fs dest platform with
  | .error e => .error e
  | .ok internal =>
    let overrides := internal.merge caller
    if m.expandVariables then
      (m.vars.mapM (Expr.expandString fs ⟨overrides, root⟩)).map (·.merge overrides)
    else .ok (m.vars.merge overrides)

end Scaffold.Variables
