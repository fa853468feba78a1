import Scaffold.Hook.Run
import Scaffold.Manifest.Decode
import Scaffold.Variables
import Scaffold.Walk.Materialize

namespace Scaffold

namespace Template

open Attempt FileAction

def manifestName : Name := ⟨Manifest.fileName, by decide⟩

def perform (command : Option String) (ctx : Context) (dest : Path) : HostAction Unit :=
  match command with
  | none | some "" => pure ()
  | some text => do
    let line ← onHost (look fun fs => Expr.expandString fs ctx text)
    Hook.run line ctx.root dest ctx.vars

def before (m : Manifest) (ctx : Context) (dest : Path) : HostAction Unit :=
  match m.preCommand with
  | none | some "" => pure ()
  | some text => do
    (makeDirectories dest).onHost
    perform (some text) ctx dest

def loadWith (m : Manifest) (root dest : Path) (caller : Bindings String)
    (platform : Option String) : HostAction Unit := do
  let vars ← onHost (look fun fs => Variables.resolve fs m caller dest root platform)
  let ctx : Context := ⟨vars, root⟩
  before m ctx dest
  (Walk.materialize m ctx root dest).onHost
  perform m.postCommand ctx dest

def load (root dest : Path) (caller : Bindings String) (platform : Option String) :
    HostAction Unit := do
  let manifest := root.child manifestName
  if ← (ask FileSystem.isFile manifest).onHost then
    let m ← onHost (look fun fs => Manifest.load fs manifest)
    loadWith m root dest caller platform
  else (Walk.copyTree root dest).onHost

def create (source out : Path) : FileAction Unit :=
  Walk.copyTree source out

end Template

end Scaffold
