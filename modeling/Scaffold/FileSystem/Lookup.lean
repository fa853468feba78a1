import Scaffold.FileSystem.Basic
import Scaffold.FileSystem.Refusal

namespace Scaffold

/-- What a path leads to: an entry, or a place in a directory where one can be made. -/
inductive Spot
  | there (loc : Location) (e : Entry)
  | vacant (loc : Location)

/-- What a path is looked up for: the entry itself, what it leads to through all links, or a file to
be written there. -/
inductive Purpose
  | entry
  | target
  | writing
  deriving DecidableEq, Repr

def linkLimit : Nat := 40

namespace FileSystem

/-- The names on the way that a link shows. A slash at the end asks for a directory, as a dot does.
It leaves an empty name. -/
def linkSteps (target : String) : List String :=
  let ps := ((pieces '/' target.toList).map String.ofList).filter (· ≠ "")
  if target.toList.getLast? = some '/' then ps ++ [""] else ps

def linkStart (target : String) (loc : Location) : Location :=
  if target.toList.head? = some '/' then [] else loc

def descend (fs : FileSystem) (purpose : Purpose)
    (jump : Location → List String → Except Refusal Spot) :
    Location → Entry → List String → Except Refusal Spot
  | loc, e, [] => .ok (.there loc e)
  | loc, .directory, n :: rest =>
    if n = "" ∨ n = "." then descend fs purpose jump loc .directory rest
    else if n = ".." then descend fs purpose jump loc.tail .directory rest
    else if purpose = .writing ∧ rest = [""] then .error .isDirectory
    else if nameLimit < n.utf8ByteSize then .error .nameTooLong
    else match fs.get? (n :: loc) with
      | none => if rest = [] then .ok (.vacant (n :: loc)) else .error .noEntry
      | some (.link target) =>
        if rest = [] ∧ purpose = .entry then .ok (.there (n :: loc) (.link target))
        else jump (linkStart target loc) (linkSteps target ++ rest)
      | some e => descend fs purpose jump (n :: loc) e rest
  | _, _, _ :: _ => .error .notDirectory

def walk (fs : FileSystem) (purpose : Purpose) :
    Nat → Location → List String → Except Refusal Spot
  | 0 => fun loc => descend fs purpose (fun _ _ => .error .tooManyLinks) loc .directory
  | links + 1 => fun loc => descend fs purpose (walk fs purpose links) loc .directory

def startOf (fs : FileSystem) (p : Path) : Location :=
  if p.isAbsolute then [] else fs.workDir

def find (fs : FileSystem) (purpose : Purpose) (p : Path) : Except Refusal Spot :=
  if p.hasNul then .error .embeddedNul
  else if pathLimit < p.byteLength then .error .nameTooLong
  else if fs.get? (fs.startOf p) = some .directory then
    fs.walk purpose linkLimit (fs.startOf p) p.steps
  else .error .noEntry

def entryAt (fs : FileSystem) (p : Path) : Except Refusal Entry :=
  match fs.find .entry p with
  | .ok (.there _ e) => .ok e
  | .ok (.vacant _) => .error .noEntry
  | .error r => .error r

def targetAt (fs : FileSystem) (p : Path) : Except Refusal Entry :=
  match fs.find .target p with
  | .ok (.there _ e) => .ok e
  | .ok (.vacant _) => .error .noEntry
  | .error r => .error r

def ask (found : Except Refusal Entry) (question : Entry → Bool) : Except Refusal Bool :=
  match found with
  | .ok e => .ok (question e)
  | .error r => if r.meansAbsent then .ok false else .error r

def Entry.isDirectory : Entry → Bool
  | .directory => true
  | _ => false

def Entry.isFile : Entry → Bool
  | .file .. => true
  | _ => false

def Entry.isLink : Entry → Bool
  | .link _ => true
  | _ => false

def exists? (fs : FileSystem) (p : Path) : Except Refusal Bool :=
  ask (fs.targetAt p) fun _ => true

def isDirectory (fs : FileSystem) (p : Path) : Except Refusal Bool :=
  ask (fs.targetAt p) Entry.isDirectory

def isFile (fs : FileSystem) (p : Path) : Except Refusal Bool :=
  ask (fs.targetAt p) Entry.isFile

def isLink (fs : FileSystem) (p : Path) : Except Refusal Bool :=
  ask (fs.entryAt p) Entry.isLink

end FileSystem

end Scaffold
