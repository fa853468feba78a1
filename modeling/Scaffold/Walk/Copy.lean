import Scaffold.Walk.WorkList

namespace Scaffold

namespace FileAction

open Attempt

def makeOneDirectory (p : Path) : FileAction Unit :=
  fun fs => match fs.makeDirectory p with
    | .ok fs' => (.ok (), fs')
    | .error r =>
      if r = .noEntry then (.error (.obstacle (.refused r p.text)), fs)
      else match fs.isDirectory p with
        | .ok true => (.ok (), fs)
        | .ok false => (.error (.obstacle (.refused r p.text)), fs)
        | .error r => (.error (.obstacle (.refused r p.text)), fs)

def makeDirectoriesAt (anchor : Anchor) : List Name → FileAction Unit
  | [] => makeOneDirectory ⟨anchor, []⟩
  | n :: names => fun fs =>
    match fs.makeDirectory ⟨anchor, n :: names⟩ with
    | .error .noEntry =>
      (do
        makeDirectoriesAt anchor names
        makeOneDirectory ⟨anchor, n :: names⟩) fs
    | _ => makeOneDirectory ⟨anchor, n :: names⟩ fs

def makeDirectories (p : Path) : FileAction Unit :=
  makeDirectoriesAt p.anchor p.names

def makeRoom (dest : Path) : FileAction Unit := do
  if ← ask FileSystem.isLink dest then change FileSystem.removeFile dest
  else if ← ask FileSystem.isFile dest then change FileSystem.removeFile dest
  else if ← ask FileSystem.isDirectory dest then fail (.overDirectory dest)
  else pure ()

def copyLink (source dest : Path) : FileAction Unit := do
  makeRoom dest
  let target ← ask FileSystem.readLink source
  change (·.makeLink target) dest

def modeAt (fs : FileSystem) (p : Path) : Except Refusal Nat :=
  match fs.targetAt p with
  | .ok (.file _ mode) => .ok mode
  | .ok _ => .ok FileSystem.newFileMode
  | .error r => .error r

def copyMode (source dest : Path) : FileAction Unit := do
  let mode ← ask modeAt source
  change (·.setMode · mode) dest

def isPipe (fs : FileSystem) (p : Path) : Except Refusal Bool :=
  match fs.targetAt p with
  | .ok .pipe => .ok true
  | _ => .ok false

def copyFile (source dest : Path) : FileAction Unit := do
  makeRoom dest
  if ← ask isPipe dest then fail (.obstacle (.pipeInTheWay dest))
  let bytes ← ask FileSystem.readFile source
  change (·.writeFile · bytes) dest
  copyMode source dest

end FileAction

namespace Walk

open Attempt FileAction

def openDirectory (source dest : Path) : FileAction (Path × List Name) := do
  makeDirectories dest
  let names ← ask FileSystem.list source
  pure (dest, names)

def blameCopy (p : Pair) : Failure → Failure
  | .obstacle o => if o.isSystem then .copyFailed p.source o p.dest else .obstacle o
  | e => e

def copyVisit : Visit := fun p =>
  mapFailure (blameCopy p) do
    match ← ask FileSystem.entryAt p.source with
    | .link _ =>
      copyLink p.source p.dest
      pure (p.dest, [])
    | .file .. =>
      copyFile p.source p.dest
      pure (p.dest, [])
    | .directory => openDirectory p.source p.dest
    | .pipe => fail (.unsupportedKind p.source)

def copyTree (source dest : Path) : FileAction Unit :=
  run copyVisit [⟨source, dest⟩]

end Walk

end Scaffold
