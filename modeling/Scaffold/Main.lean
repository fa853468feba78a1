import Scaffold.Cli.Commands
import Scaffold.FileSystem.Image
import Scaffold.Json.Printer

/-!
The program. It works on an image of a file system, which it reads as one line of JSON from its
input: an object with the entries of the working directory under `files` and the environment under
`env`. The lines behind it answer the questions of the program. The new image is the last line of
its output.
-/

namespace Scaffold.Program

open Json (Value)

def workDir : Location := ["work"]

def members (v : Value) (key : String) : List (String × Value) :=
  match v with
  | .object ms =>
    match Value.member? ms key with
    | some (.object inner) => inner
    | _ => []
  | _ => []

def environment (image : Value) : Bindings String :=
  .ofList ((members image "env").filterMap fun m => match m.2 with
    | .string s => some (m.1, s)
    | _ => none)

def hostOf (image : Value) : Host where
  files := Image.build (Image.emptyAt workDir) (members image "files")
  env := environment image
  processes := []
  launches := []

def imageOf (h : Host) : Value :=
  .object [("files", .object (Image.below h.files workDir)),
    ("env", .object (h.env.entries.map fun e => (e.1, .string e.2)))]

def padRow (widths : List Nat) (row : List String) : String :=
  String.intercalate "  " (List.zipWith (fun w (c : String) =>
    c ++ String.ofList (List.replicate (w - c.length) ' ')) widths row)

def tableText (rows : List (List String)) : String :=
  let rows := ["Name", "Template", "Variables"] :: rows
  let widths := (List.range 3).map fun k =>
    (rows.map fun r => (r.getD k "").length).foldl max 0
  String.join (rows.map fun r => padRow widths r ++ "\n")

partial def readLines (input : IO.FS.Stream) : IO (List String) := do
  let line ← input.getLine
  if line.isEmpty then return []
  return line :: (← readLines input)

end Scaffold.Program

open Scaffold in
def main (args : List String) : IO UInt32 := do
  let stdin ← IO.getStdin
  let image := (Json.parse? .standard (← stdin.getLine).toList).getD .null
  let (result, h) := Cli.execute args (← Program.readLines stdin) (Program.hostOf image)
  let out := match result with
    | .ok out => out
    | .error e => ⟨1, "", Cli.errorText e, none⟩
  match out.rows with
  | some rows => IO.print (Program.tableText rows)
  | none => IO.print out.output
  IO.eprint out.errors
  IO.println (Program.imageOf h).compact
  return out.code.toUInt32
