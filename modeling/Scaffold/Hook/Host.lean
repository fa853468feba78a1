import Scaffold.Attempt
import Scaffold.FileSystem.Operations

namespace Scaffold

inductive Job.Ending
  | notStarted (reason : String)
  | exited (code : Int) (stderr : String)
  deriving DecidableEq, Repr

structure Job where
  change : FileSystem → FileSystem
  ending : Job.Ending

def Job.idle : Job := ⟨id, .exited 0 ""⟩

structure Launch where
  args : List String
  cwd : Path
  env : Bindings String
  deriving DecidableEq

/-- `processes` are the next ones to run. After the last of them all processes are idle. -/
structure Host where
  files : FileSystem
  env : Bindings String
  processes : List Job
  launches : List Launch

namespace Host

def launch (h : Host) (l : Launch) : Job.Ending × Host :=
  let p := h.processes.head?.getD .idle
  (p.ending, { h with
    files := p.change h.files
    processes := h.processes.tail
    launches := h.launches ++ [l] })

end Host

abbrev FileAction := Attempt FileSystem

abbrev HostAction := Attempt Host

namespace FileAction

def ask {α : Type} (question : FileSystem → Path → Except Refusal α) (p : Path) : FileAction α :=
  fun fs => match question fs p with
    | .ok a => (.ok a, fs)
    | .error r => (.error (.obstacle (.refused r p.text)), fs)

def change (operation : FileSystem → Path → Except Refusal FileSystem) (p : Path) :
    FileAction Unit :=
  fun fs => match operation fs p with
    | .ok fs' => (.ok (), fs')
    | .error r => (.error (.obstacle (.refused r p.text)), fs)

def onHost {α : Type} (a : FileAction α) : HostAction α :=
  fun h => match a h.files with
    | (r, fs) => (r, { h with files := fs })

end FileAction

end Scaffold
