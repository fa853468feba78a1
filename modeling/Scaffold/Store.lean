import Scaffold.Home
import Scaffold.Load

namespace Scaffold.Store

open Attempt FileAction

def path (home : Home) (name : String) : Except Failure Path :=
  home.templateDirectory name

def exists? (home : Home) (name : String) : FileAction Bool := do
  ask FileSystem.isDirectory (← settle (path home name))

def directoryOf (home : Home) (name : String) : FileAction Path := do
  let p ← settle (path home name)
  if ← ask FileSystem.isDirectory p then pure p else fail (.noTemplate name)

def keepDirectories (dir : Path) : List Name → FileAction (List String)
  | [] => pure []
  | n :: ns => do
    let here ← ask FileSystem.isDirectory (dir.child n)
    let rest ← keepDirectories dir ns
    pure (if here then n.1 :: rest else rest)

def names (home : Home) : FileAction (List String) := do
  if ← ask FileSystem.isDirectory home.templates then
    keepDirectories home.templates (← ask FileSystem.list home.templates)
  else pure []

def removeTree (p : Path) : FileAction Unit := do
  match ← ask FileSystem.entryAt p with
  | .directory =>
    change FileSystem.emptyDirectory p
    change FileSystem.removeTree p
  | .link _ => fail (.obstacle .linkNotRemoved)
  | _ => fail (.obstacle (.fileNotRemoved p))

def create (home : Home) (name : String) (source : Path) (overwrite : Bool) : FileAction Path := do
  let p ← settle (path home name)
  if ← ask FileSystem.exists? p then
    if overwrite then removeTree p else fail (.templateExists name)
  makeDirectories home.templates
  Template.create source p
  pure p

def load (home : Home) (name : String) (dest : Path) (vars : Bindings String) :
    HostAction Unit := do
  Template.load (← (directoryOf home name).onHost) dest vars none

def edit (home : Home) (name : String) (dest : Path) : FileAction Unit := do
  Walk.copyTree (← directoryOf home name) dest

def remove (home : Home) (name : String) : FileAction Unit := do
  removeTree (← directoryOf home name)

end Scaffold.Store
