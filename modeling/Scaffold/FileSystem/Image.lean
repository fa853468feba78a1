import Scaffold.FileSystem.Operations
import Scaffold.Json.Value
import Scaffold.Text.Utf8

/-!
Images of file systems in JSON: an object from paths to entries. A directory is `null`, a file is
its text, or an object with its `text` or the bytes in `hex`, and its `mode`, a link is an object
with its target under `link`, and a pipe is an object with the member `fifo`.
-/

namespace Scaffold.Image

open Json (Value)

def bytesOfHex : List Char → List UInt8
  | a :: b :: cs => UInt8.ofNat (Text.Digits.read 16 [a, b]) :: bytesOfHex cs
  | _ => []

def hexOfBytes (bytes : ByteArray) : String :=
  String.join (bytes.toList.map Text.Utf8.hexByte)

def modeOfText (s : String) : Nat :=
  Text.Digits.read 8 s.toList

def textOfMode (mode : Nat) : String :=
  String.ofList (Text.Digits.write 8 4 mode)

def textMember? (members : List (String × Value)) (key : String) : Option String :=
  match Value.member? members key with
  | some (.string s) => some s
  | _ => none

def entryOfMembers? (members : List (String × Value)) : Option Entry :=
  let mode := match textMember? members "mode" with
    | some s => modeOfText s
    | none => FileSystem.newFileMode
  match textMember? members "link", textMember? members "hex", textMember? members "text" with
  | some target, _, _ => some (.link target)
  | none, some hex, _ => some (.file ⟨(bytesOfHex hex.toList).toArray⟩ mode)
  | none, none, some text => some (.file text.toUTF8 mode)
  | none, none, none => (Value.member? members "fifo").map fun _ => .pipe

def entryOfValue? : Value → Option Entry
  | .null => some .directory
  | .string s => some (.file s.toUTF8 FileSystem.newFileMode)
  | .object members => entryOfMembers? members
  | _ => none

def valueOfEntry : Entry → Value
  | .directory => .null
  | .link target => .object [("link", .string target)]
  | .pipe => .object [("fifo", .bool true)]
  | .file bytes mode =>
    let content := match String.fromUTF8? bytes with
      | some s => ("text", Value.string s)
      | none => ("hex", .string (hexOfBytes bytes))
    .object [content, ("mode", .string (textOfMode mode))]

def attempt (fs : FileSystem) (r : Except Refusal FileSystem) : FileSystem :=
  match r with
  | .ok fs' => fs'
  | .error _ => fs

def makeDirectoriesAt (anchor : Anchor) : List Name → FileSystem → FileSystem
  | [], fs => fs
  | n :: names, fs =>
    let fs := makeDirectoriesAt anchor names fs
    attempt fs (fs.makeDirectory ⟨anchor, n :: names⟩)

def place (fs : FileSystem) (p : Path) (e : Entry) : FileSystem :=
  let fs := makeDirectoriesAt p.anchor p.names.tail fs
  match e with
  | .directory => attempt fs (fs.makeDirectory p)
  | .file bytes mode =>
    let fs := attempt fs (fs.writeFile p bytes)
    attempt fs (fs.setMode p mode)
  | .link target =>
    let fs := attempt fs (fs.removeFile p)
    attempt fs (fs.makeLink target p)
  | .pipe =>
    let fs := attempt fs (fs.removeFile p)
    match fs.find .entry p with
    | .ok (.vacant loc) => fs.set loc .pipe
    | _ => fs

def build (fs : FileSystem) (members : List (String × Value)) : FileSystem :=
  members.foldl (fun fs m =>
    match entryOfValue? m.2 with
    | some e => place fs (Path.ofString m.1) e
    | none => fs) fs

def below (fs : FileSystem) (base : Location) : List (String × Value) :=
  fs.entries.toList.filterMap fun (loc, e) =>
    if base <:+ loc ∧ loc ≠ base then
      let names := (loc.take (loc.length - base.length)).reverse
      some (String.intercalate "/" names, valueOfEntry e)
    else none

def emptyAt (workDir : Location) : FileSystem :=
  let fs := workDir.reverse.foldl (fun (acc : FileSystem × Location) n =>
    (acc.1.set (n :: acc.2) .directory, n :: acc.2)) (FileSystem.empty, [])
  { fs.1 with workDir := workDir }

end Scaffold.Image
