import Scaffold.Cli.Arguments
import Scaffold.Config
import Scaffold.Store
import Scaffold.Text.ControlSequence

namespace Scaffold.Cli

def version : String := "makemake 0.1.0\n"

def usage : String :=
  "Usage: makemake [--version] [-v] COMMAND [ARGS]...\n" ++
  "Commands: load, create, edit, remove, list, alias set, alias remove, var set, var unset, " ++
  "var list\n"

structure Terminal where
  host : Host
  input : List String
  output : String
  rows : Option (List (List String))

abbrev Action := Attempt Terminal

open Attempt

def onHost {α : Type} (a : HostAction α) : Action α :=
  fun t => match a t.host with
    | (r, h) => (r, { t with host := h })

def onFiles {α : Type} (a : FileAction α) : Action α :=
  onHost a.onHost

def Terminal.print (t : Terminal) (s : String) : Terminal :=
  { t with output := t.output ++ Text.ControlSequence.strip s }

def say (s : String) : Action Unit :=
  fun t => (.ok (), t.print s)

def normalizeReply (s : String) : String :=
  let cs := s.toList.dropWhile Text.isBlank
  String.ofList ((cs.reverse.dropWhile Text.isBlank).reverse.map Char.toLower)

def reply? : String → Option Bool
  | "y" | "yes" => some true
  | "n" | "no" | "" => some false
  | _ => none

def askLines (question : String) : List String → Action Bool
  | [] => fun t => (.error (.obstacle .endOfInput), { t.print question with input := [] })
  | line :: rest => fun t =>
    match reply? (normalizeReply line) with
    | some b => (.ok b, { t.print question with input := rest })
    | none => askLines question rest ((t.print question).print "Error: invalid input\n")

def confirm (message : String) (answer : Answer) : Action Bool :=
  match answer with
  | .yes => pure true
  | .no => pure false
  | .ask => fun t => askLines (message ++ " [y/N]: ") t.input t

def readDefinition (text : String) : Except Failure (String × String) :=
  let cs := text.toList
  let name := cs.takeWhile (· ≠ '=')
  if name = [] then .error (.badDefinition text)
  else .ok (String.ofList name, String.ofList (cs.dropWhile (· ≠ '=')).tail)

def readDefinitions (texts : List String) : Except Failure (Bindings String) :=
  match texts.mapM readDefinition with
  | .error e => .error e
  | .ok ds => .ok (.ofList ds)

def home : Action Home := fun t => (Home.resolve t.host.env none, t)

def config : Action Config := do
  onFiles (Config.load (← home).configPath)

def saveConfig (c : Config) : Action Unit := do
  onFiles (c.save (← home).configPath)

def isNonEmptyDirectory (p : Path) : FileAction Bool := do
  if ← FileAction.ask FileSystem.isDirectory p then
    let names ← FileAction.ask FileSystem.list p
    pure !names.isEmpty
  else pure false

def mayFill (dest : Path) (what : String) (answer : Answer) : Action Bool := do
  if ← onFiles (isNonEmptyDirectory dest) then
    confirm ("The directory " ++ dest.text ++ " is not empty.\nDo you want to load the " ++ what ++
      " anyway?") answer
  else pure true

def load (name : String) (dest : Path) (defines : List String) (answer : Answer) :
    Action Unit := do
  let c ← config
  let (template, aliasVars) := c.resolve name
  let vars := Variables.mergeAll [c.vars, aliasVars, ← settle (readDefinitions defines)]
  if ← mayFill dest "template" answer then
    onHost (Store.load (← home) template dest vars)
    say ("Loaded template '" ++ template ++ "' into " ++ dest.text ++ "\n")
  else pure ()

def create (name : String) (source : Path) (answer : Answer) : Action Unit := do
  let h ← home
  let old ← onFiles (Store.exists? h name)
  let go ← if old then
    confirm ("Template with the name '" ++ name ++
      "' already exists.\nDo you want to overwrite it?") answer
  else pure true
  if go then
    let p ← onFiles (Store.create h name source old)
    say ("Created template '" ++ name ++ "' at " ++ p.text ++ "\n")
  else pure ()

def edit (name : String) (dest : Path) (answer : Answer) : Action Unit := do
  if ← mayFill dest "template source" answer then
    onFiles (Store.edit (← home) name dest)
    say ("Copied source of template '" ++ name ++ "' into " ++ dest.text ++ "\n")
  else pure ()

def remove (name : String) : Action Unit := do
  onFiles (Store.remove (← home) name)
  say ("Removed template '" ++ name ++ "'\n")

def byKey {α : Type} (entries : List (String × α)) : List (String × α) :=
  entries.mergeSort fun a b => !(b.1 < a.1)

def definitionText (e : String × String) : String :=
  e.1 ++ "=" ++ e.2

def aliasRow (e : String × Alias) : List String :=
  [e.1, e.2.template,
    String.intercalate " " ((byKey e.2.vars.entries).map definitionText)]

def list : Action Unit := do
  let names ← onFiles (Store.names (← home))
  let c ← config
  let rows := names.map (fun n => [n, "", ""]) ++ (byKey c.aliases.entries).map aliasRow
  if rows = [] then say "No templates found\n"
  else fun t => (.ok (), { t with rows := some rows })

def aliasSet (name template : String) (defines : List String) : Action Unit := do
  let c ← config
  saveConfig (c.insertAlias name template (← settle (readDefinitions defines)))
  say ("Alias '" ++ name ++ "' -> '" ++ template ++ "'\n")

def aliasRemove (name : String) : Action Unit := do
  let c ← config
  saveConfig (← settle (c.eraseAlias name))
  say ("Removed alias '" ++ name ++ "'\n")

def varSet (name value : String) : Action Unit := do
  let c ← config
  saveConfig (c.insertVar name value)
  say (definitionText (name, value) ++ "\n")

def varUnset (name : String) : Action Unit := do
  match (← config).eraseVar? name with
  | none => say ("Variable '" ++ name ++ "' is not set\n")
  | some c =>
    saveConfig c
    say ("Unset " ++ name ++ "\n")

def varList : Action Unit := do
  let c ← config
  say (String.join ((byKey c.vars.entries).map fun e => definitionText e ++ "\n"))

def run : Command → Action Unit
  | .load name dest defines answer => load name dest defines answer
  | .create name source answer => create name source answer
  | .edit name dest answer => edit name dest answer
  | .remove name => remove name
  | .list => list
  | .aliasSet name template defines => aliasSet name template defines
  | .aliasRemove name => aliasRemove name
  | .varSet name value => varSet name value
  | .varUnset name => varUnset name
  | .varList => varList

structure Outcome where
  code : Nat
  output : String
  errors : String
  rows : Option (List (List String))

def errorText (e : Failure) : String :=
  Text.ControlSequence.strip
    ((if e.isForeseen then "Error: " else "Unexpected error: ") ++ e.message ++ "\n")

def execute (args : List String) (input : List String) (h : Host) : Except Failure Outcome × Host :=
  match Request.ofArguments args with
  | .help => (.ok ⟨0, usage, "", none⟩, h)
  | .version => (.ok ⟨0, version, "", none⟩, h)
  | .misused => (.ok ⟨2, "", usage, none⟩, h)
  | .impossible => (.error (.obstacle (.refused .embeddedNul "")), h)
  | .run c =>
    match run c ⟨h, input, "", none⟩ with
    | (.ok (), t) => (.ok ⟨0, t.output, "", t.rows⟩, t.host)
    | (.error e, t) => (.ok ⟨1, t.output, errorText e, t.rows⟩, t.host)

end Scaffold.Cli
