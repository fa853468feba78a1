import Scaffold.Expr.MarkedText
import Scaffold.Expr.Rendering
import Scaffold.FileSystem.Operations

/-!
The meaning of expressions. Every expression writes text and tells whether it is present, which is
not the same as having written anything. The files that functions name lie below the template.
-/

namespace Scaffold

structure Context where
  vars : Bindings String
  root : Path
  deriving DecidableEq

def Context.rebind (ctx : Context) (define : Bindings String) (undefine : List String) : Context :=
  { ctx with vars := (ctx.vars.eraseAll undefine).merge define }

namespace Expr

inductive Function
  | exists
  | include
  | make
  deriving DecidableEq, Repr

def Function.ofName? : String → Option Function
  | "exists" => some .exists
  | "include" => some .include
  | "make" => some .make
  | _ => none

def Function.name : Function → String
  | .exists => "exists"
  | .include => "include"
  | .make => "make"

abbrev Expander := Context → List Char → Rendering Unit

def locate (ctx : Context) (name : List Char) : Path :=
  ctx.root.join (Path.ofString (String.ofList name))

def present (fs : FileSystem) (path : Path) : Rendering Bool :=
  match fs.exists? path with
  | .ok b => pure b
  | .error r => .fail (.obstacle (.refused r path.text))

def readText (fs : FileSystem) (path : Path) : Except Obstacle (List Char) :=
  match fs.readFile path with
  | .error r => .error (.refused r path.text)
  | .ok bytes =>
    match Text.Utf8.decode bytes with
    | .error f => .error (.undecodable f.inStream)
    | .ok s => .ok s.toList

def Obstacle.stopsReading : Obstacle → Bool
  | .undecodable _ => true
  | o => o.isSystem

def blame (f : Function) (path : Path) : Failure → Failure
  | .obstacle o => if Obstacle.stopsReading o then .unreadable f.name path o else .obstacle o
  | e => e

def includeFile (fs : FileSystem) (path : Path) : Rendering Bool := do
  if ← present fs path then
    match readText fs path with
    | .error o => .fail (.unreadable Function.include.name path o)
    | .ok cs =>
      Rendering.write cs
      pure true
  else pure false

def makeFile (fs : FileSystem) (expand : Expander) (ctx : Context) (path : Path) :
    Rendering Bool :=
  Rendering.mapFailure (blame .make path) do
    match readText fs path with
    | .error o => .fail (.obstacle o)
    | .ok cs =>
      expand ctx cs
      pure true

mutual

def evaluate (fs : FileSystem) (expand : Expander) (ctx : Context) : Expr → Rendering Bool
  | .absent => pure false
  | .var name =>
    match ctx.vars.get? name with
    | none => pure false
    | some value => do
      Rendering.write value.toList
      pure true
  | .lit text => do
    Rendering.write text.toList
    pure true
  | .seq first second => do
    let p ← evaluate fs expand ctx first
    let q ← evaluate fs expand ctx second
    pure (p || q)
  | .equals left right => do
    let l ← (evaluate fs expand ctx left).capture
    let r ← (evaluate fs expand ctx right).capture
    if l = r then
      Rendering.write l.1
      pure true
    else pure false
  | .cond test success failure => do
    let t ← (evaluate fs expand ctx test).capture
    if t.2 then evaluate fs expand ctx success else evaluate fs expand ctx failure
  | .orElse first fallback => do
    let f ← (evaluate fs expand ctx first).capture
    if f.2 then
      Rendering.write f.1
      pure true
    else evaluate fs expand ctx fallback
  | .call function file define undefine =>
    match Function.ofName? function with
    | none => .fail (.unknownFunction function)
    | some .make => do
      let name ← (evaluate fs expand ctx file).capture
      let path := locate ctx name.1
      if ← present fs path then
        let values ← evaluateDefines fs expand ctx define
        makeFile fs expand (ctx.rebind (.ofList values) undefine) path
      else pure false
    | some f =>
      if define.isEmpty ∧ undefine.isEmpty then do
        let name ← (evaluate fs expand ctx file).capture
        let path := locate ctx name.1
        match f with
        | .include => includeFile fs path
        | _ => present fs path
      else .fail (.surplusArguments function)

def evaluateDefines (fs : FileSystem) (expand : Expander) (ctx : Context) :
    Defines → Rendering (List (String × String))
  | .nil => pure []
  | .cons name value rest => do
    let v ← (evaluate fs expand ctx value).capture
    let vs ← evaluateDefines fs expand ctx rest
    pure ((name, String.ofList v.1) :: vs)

end

def expandSegments (eval : Expr → Rendering Bool) : List Segment → Rendering Unit
  | [] => pure ()
  | .char c :: ss => do
    Rendering.write [c]
    expandSegments eval ss
  | .expr e :: ss => do
    let _ ← eval e
    expandSegments eval ss
  | .fault f :: _ => .fail (.malformed f)

def expandAt (fs : FileSystem) : Nat → Expander
  | 0 => fun _ _ => .fail .tooDeep
  | depth + 1 => fun ctx cs =>
    expandSegments (evaluate fs (expandAt fs depth) ctx) (segments cs)

/-- Deeper nesting is given up. This is an idealisation, it stands for the limit of whatever
evaluates the expressions, which depends on much else. Files that do not make themselves, directly
or through others, always nest less deep. -/
def depthLimit (fs : FileSystem) : Nat :=
  fs.entries.size + 300

def expand (fs : FileSystem) : Expander :=
  expandAt fs (depthLimit fs)

def render (fs : FileSystem) (ctx : Context) (e : Expr) : Rendering Bool :=
  evaluate fs (expand fs) ctx e

def expandString (fs : FileSystem) (ctx : Context) (text : String) : Except Failure String :=
  let r := expand fs ctx text.toList
  r.result.map fun _ => String.ofList r.text

def evaluateText (fs : FileSystem) (ctx : Context) (text : String) :
    Except Failure (String × Bool) :=
  match Expr.ofText text with
  | .error f => .error (.malformed f)
  | .ok e =>
    let r := render fs ctx e
    r.result.map fun p => (String.ofList r.text, p)

end Expr

end Scaffold
