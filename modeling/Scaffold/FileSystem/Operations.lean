import Scaffold.FileSystem.Lookup

namespace Scaffold.FileSystem

def newFileMode : Nat := 0o644

def readFile (fs : FileSystem) (p : Path) : Except Refusal ByteArray :=
  match fs.targetAt p with
  | .ok (.file bytes _) => .ok bytes
  | .ok .directory => .error .isDirectory
  | .ok _ => .ok ByteArray.empty
  | .error r => .error r

theorem isName_of_mem_names (fs : FileSystem) (loc : Location) (n : String)
    (h : n ∈ fs.names loc) : isName n = true := by
  have hm : n :: loc ∈ fs.entries := by simpa [get?] using (fs.mem_names loc n).1 h
  have hn := (fs.closed n loc hm).1
  simp only [isEntryName, Bool.and_eq_true] at hn
  exact hn.1.1.1

def list (fs : FileSystem) (p : Path) : Except Refusal (List Name) :=
  match fs.find .target p with
  | .ok (.there loc .directory) =>
    .ok ((fs.names loc).attach.map fun n => ⟨n.1, fs.isName_of_mem_names loc n.1 n.2⟩)
  | .ok (.there _ _) => .error .notDirectory
  | .ok (.vacant _) => .error .noEntry
  | .error r => .error r

def readLink (fs : FileSystem) (p : Path) : Except Refusal String :=
  match fs.entryAt p with
  | .ok (.link target) => .ok target
  | .ok _ => .error .notLink
  | .error r => .error r

def makeDirectory (fs : FileSystem) (p : Path) : Except Refusal FileSystem :=
  match fs.find .entry p with
  | .ok (.there _ _) => .error .occupied
  | .ok (.vacant loc) => .ok (fs.set loc .directory)
  | .error r => .error r

def makeLink (fs : FileSystem) (target : String) (p : Path) : Except Refusal FileSystem :=
  match fs.find .entry p with
  | .ok (.there _ _) => .error .occupied
  | .ok (.vacant loc) => .ok (fs.set loc (.link target))
  | .error r => .error r

def removeFile (fs : FileSystem) (p : Path) : Except Refusal FileSystem :=
  match fs.find .entry p with
  | .ok (.there _ .directory) => .error .isDirectory
  | .ok (.there loc _) => .ok (fs.erase loc)
  | .ok (.vacant _) => .error .noEntry
  | .error r => .error r

def writeFile (fs : FileSystem) (p : Path) (bytes : ByteArray) : Except Refusal FileSystem :=
  match fs.find .writing p with
  | .ok (.there loc (.file _ mode)) => .ok (fs.set loc (.file bytes mode))
  | .ok (.there _ .directory) => .error .isDirectory
  | .ok (.there _ _) => .ok fs
  | .ok (.vacant loc) => .ok (fs.set loc (.file bytes newFileMode))
  | .error r => .error r

/-- Permission bits are kept for files only. -/
def setMode (fs : FileSystem) (p : Path) (mode : Nat) : Except Refusal FileSystem :=
  match fs.find .target p with
  | .ok (.there loc (.file bytes _)) => .ok (fs.set loc (.file bytes mode))
  | .ok (.there _ _) => .ok fs
  | .ok (.vacant _) => .error .noEntry
  | .error r => .error r

def emptyDirectory (fs : FileSystem) (p : Path) : Except Refusal FileSystem :=
  match fs.find .entry p with
  | .ok (.there loc .directory) => .ok (fs.eraseBelow loc)
  | .ok (.there _ _) => .error .notDirectory
  | .ok (.vacant _) => .error .noEntry
  | .error r => .error r

def removeTree (fs : FileSystem) (p : Path) : Except Refusal FileSystem :=
  match fs.find .entry p with
  | .ok (.there loc .directory) => .ok (fs.eraseTree loc)
  | .ok (.there _ _) => .error .notDirectory
  | .ok (.vacant _) => .error .noEntry
  | .error r => .error r

end Scaffold.FileSystem
