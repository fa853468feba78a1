import Scaffold.Expr.Evaluate
import Scaffold.Walk.Copy

namespace Scaffold

namespace FileAction

open Attempt

def writeRendering (dest : Path) (render : FileSystem → Expr.Rendering Unit) : FileAction Unit :=
  fun fs =>
    let r := render fs
    match fs.writeFile dest (String.ofList r.text).toUTF8 with
    | .ok fs' => (r.result, fs')
    | .error e => (.error (.obstacle (.refused e dest.text)), fs)

/-- Puts the expansion of one file into another, which is emptied before the first one is read.
Both are read and written as a whole. Where that is done piece by piece it comes to the same for
a file that can be decoded, unless the expansion asks for what is in the very file that it goes
into. -/
def expandInto (source dest : Path) (ctx : Context) : FileAction Unit := do
  let _ ← ask FileSystem.readFile source
  change (·.writeFile · ByteArray.empty) dest
  let bytes ← ask FileSystem.readFile source
  match Text.Utf8.decode bytes with
  | .error f => fail (.obstacle (.undecodable f.inStream))
  | .ok s => writeRendering dest fun fs => Expr.expand fs ctx s.toList

end FileAction

namespace Walk

open Attempt FileAction

def effective (fs : FileSystem) (ctx : Context) (rule : Option FileRule) (dest : Path) :
    Except Failure (Option (Action × Path)) :=
  match rule with
  | none => .ok (some (.auto, dest))
  | some ⟨.ignore, _⟩ => .ok none
  | some ⟨action, ""⟩ => .ok (some (action, dest))
  | some ⟨action, text⟩ =>
    match Expr.expandString fs ctx text with
    | .error e => .error e
    | .ok "" => .ok none
    | .ok ".." => .error (.badFileName ".." dest)
    | .ok name =>
      match Name.ofString? name with
      | none => .error (.badFileName name dest)
      | some n => .ok (some (action, dest.withName n))

def blameEntry (p : Pair) : Failure → Failure
  | .obstacle (.undecodable f) => .notText f.reason p.source
  | .obstacle o => if o.isSystem then .materializeFailed p.source o p.dest else .obstacle o
  | e => e

def handle (ctx : Context) (source : Path) (action : Action) (dest : Path) :
    Entry → FileAction (Path × List Name)
  | .link _ => do
    copyLink source dest
    pure (dest, [])
  | .file .. => do
    if action = .make then
      makeRoom dest
      expandInto source dest ctx
      copyMode source dest
    else copyFile source dest
    pure (dest, [])
  | .directory =>
    if action = .copy then do
      copyTree source dest
      pure (dest, [])
    else openDirectory source dest
  | .pipe => fail (.unsupportedKind source)

def pathBelow (root source : Path) : Except Failure String :=
  match source.relativeTo? root with
  | some p => .ok p.text
  | none => .error (.outsideTemplate source)

def visitEntry (m : Manifest) (ctx : Context) (root : Path) (p : Pair) :
    FileAction (Path × List Name) := do
  let e ← ask FileSystem.entryAt p.source
  let rel ← settle (pathBelow root p.source)
  let rule := m.lookup rel
  if rule = none ∧ rel = Manifest.fileName then pure (p.dest, [])
  else
    match ← look fun fs => effective fs ctx rule p.dest with
    | none => pure (p.dest, [])
    | some (action, dest) => handle ctx p.source action dest e

def visitRoot (p : Pair) : FileAction (Path × List Name) := do
  if ← ask FileSystem.isDirectory p.source then openDirectory p.source p.dest
  else fail (.noTemplateDirectory p.source)

def materializeVisit (m : Manifest) (ctx : Context) (root : Path) : Visit := fun p =>
  mapFailure (blameEntry p) (if p.source = root then visitRoot p else visitEntry m ctx root p)

def materialize (m : Manifest) (ctx : Context) (root dest : Path) : FileAction Unit :=
  run (materializeVisit m ctx root) [⟨root, dest⟩]

end Walk

end Scaffold
