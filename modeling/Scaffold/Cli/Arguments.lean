import Scaffold.Path

namespace Scaffold.Cli

inductive Answer
  | yes
  | no
  | ask
  deriving DecidableEq, Repr

def Answer.ofText? : String → Option Answer
  | "yes" => some .yes
  | "no" => some .no
  | "ask" => some .ask
  | _ => none

inductive Command
  | load (name : String) (dest : Path) (defines : List String) (answer : Answer)
  | create (name : String) (source : Path) (answer : Answer)
  | edit (name : String) (dest : Path) (answer : Answer)
  | remove (name : String)
  | list
  | aliasSet (name template : String) (defines : List String)
  | aliasRemove (name : String)
  | varSet (name value : String)
  | varUnset (name : String)
  | varList
  deriving DecidableEq

/-- What a command line asks for. The impossible is a path with a NUL, which no system takes. -/
inductive Request
  | help
  | version
  | misused
  | impossible
  | run (c : Command)
  deriving DecidableEq

structure Flag where
  short : Option Char
  long : String
  takesValue : Bool
  deriving DecidableEq, Repr

def helpFlag : Flag := ⟨none, "--help", false⟩
def versionFlag : Flag := ⟨none, "--version", false⟩
def verboseFlag : Flag := ⟨some 'v', "--verbose", false⟩
def defineFlag : Flag := ⟨some 'D', "--define", true⟩
def promptFlag : Flag := ⟨some 'p', "--prompt", true⟩

structure Parsed where
  options : List (String × String)
  arguments : List String
  deriving DecidableEq, Repr

namespace Parsed

def option (p : Parsed) (f : Flag) (value : String) : Parsed :=
  { p with options := (f.long, value) :: p.options }

def argument (p : Parsed) (a : String) : Parsed :=
  { p with arguments := a :: p.arguments }

def values (p : Parsed) (f : Flag) : List String :=
  p.options.filterMap fun o => if o.1 = f.long then some o.2 else none

def has (p : Parsed) (f : Flag) : Bool :=
  !(p.values f).isEmpty

end Parsed

structure Reading where
  given : List (Flag × String)
  waiting : Option Flag

def readLetters (flags : List Flag) : List Char → Option Reading
  | [] => some ⟨[], none⟩
  | c :: cs =>
    match flags.find? (·.short = some c) with
    | none => none
    | some f =>
      if f.takesValue then
        if cs = [] then some ⟨[], some f⟩ else some ⟨[(f, String.ofList cs)], none⟩
      else (readLetters flags cs).map fun r => { r with given := (f, "") :: r.given }

def readLong (flags : List Flag) (arg : List Char) : Option Reading :=
  let spelling := String.ofList (arg.takeWhile (· ≠ '='))
  match flags.find? (·.long = spelling), arg.dropWhile (· ≠ '=') with
  | some f, _ :: value => if f.takesValue then some ⟨[(f, String.ofList value)], none⟩ else none
  | some f, [] => if f.takesValue then some ⟨[], some f⟩ else some ⟨[(f, "")], none⟩
  | none, _ => none

def readOption (flags : List Flag) (arg : List Char) : Option Reading :=
  match arg with
  | '-' :: '-' :: _ => readLong flags arg
  | _ :: letters => readLetters flags letters
  | [] => none

def isOption (arg : String) : Bool :=
  arg.toList.head? = some '-' && arg ≠ "-"

def parse (flags : List Flag) (mixed : Bool) : Option Flag → List String → Option Parsed
  | none, [] => some ⟨[], []⟩
  | some _, [] => none
  | some f, a :: rest => (parse flags mixed none rest).map (·.option f a)
  | none, a :: rest =>
    if a = "--" then some ⟨[], rest⟩
    else if isOption a then
      match readOption flags a.toList with
      | none => none
      | some r =>
        (parse flags mixed r.waiting rest).map fun p =>
          r.given.foldr (fun g p => p.option g.1 g.2) p
    else if mixed then (parse flags mixed none rest).map (·.argument a)
    else some ⟨[], a :: rest⟩

namespace Request

def forCommand (flags : List Flag) (args : List String) (use : Parsed → Request) : Request :=
  match parse (helpFlag :: flags) true none args with
  | none => .misused
  | some p => if p.has helpFlag then .help else use p

def answer? (p : Parsed) : Option Answer :=
  match (p.values promptFlag).getLast? with
  | none => some .ask
  | some s => Answer.ofText? s

def withPlace (p : Parsed) (c : String → Path → Answer → Command) : Request :=
  match p.arguments, answer? p with
  | name :: rest, some a =>
    let place := Path.ofString (rest.head?.getD ".")
    if place.hasNul then .impossible
    else if rest.length ≤ 1 then .run (c name place a)
    else .misused
  | _, _ => .misused

def load (args : List String) : Request :=
  forCommand [defineFlag, promptFlag] args fun p =>
    withPlace p fun name dest a => .load name dest (p.values defineFlag) a

def create (args : List String) : Request :=
  forCommand [promptFlag] args fun p => withPlace p .create

def edit (args : List String) : Request :=
  forCommand [promptFlag] args fun p => withPlace p .edit

def withName (args : List String) (c : String → Command) : Request :=
  forCommand [] args fun p =>
    match p.arguments with
    | [name] => .run (c name)
    | _ => .misused

def alone (args : List String) (c : Command) : Request :=
  forCommand [] args fun p => if p.arguments = [] then .run c else .misused

def aliasSet (args : List String) : Request :=
  forCommand [defineFlag] args fun p =>
    match p.arguments with
    | [name, template] => .run (.aliasSet name template (p.values defineFlag))
    | _ => .misused

def varSet (args : List String) : Request :=
  forCommand [] args fun p =>
    match p.arguments with
    | [name] => .run (.varSet name "")
    | [name, value] => .run (.varSet name value)
    | _ => .misused

def forGroup (args : List String) (choose : String → Option (List String → Request)) : Request :=
  match parse [helpFlag] false none args with
  | none => .misused
  | some p =>
    if p.has helpFlag then .help
    else match p.arguments with
      | [] => .misused
      | c :: rest =>
        match choose c with
        | some f => f rest
        | none => .misused

def inAlias : String → Option (List String → Request)
  | "set" => some aliasSet
  | "remove" => some fun args => withName args .aliasRemove
  | _ => none

def inVar : String → Option (List String → Request)
  | "set" => some varSet
  | "unset" => some fun args => withName args .varUnset
  | "list" => some fun args => alone args .varList
  | _ => none

def command? : String → Option (List String → Request)
  | "load" => some load
  | "create" => some create
  | "edit" => some edit
  | "remove" => some fun args => withName args .remove
  | "list" => some fun args => alone args .list
  | "alias" => some fun args => forGroup args inAlias
  | "var" => some fun args => forGroup args inVar
  | _ => none

def ofArguments (args : List String) : Request :=
  match parse [helpFlag, versionFlag, verboseFlag] false none args with
  | none => .misused
  | some p =>
    if p.has helpFlag then .help
    else match p.arguments with
      | [] => if p.has versionFlag then .version else .help
      | c :: rest =>
        match command? c with
        | none => .misused
        | some f => if p.has versionFlag then .version else f rest

end Request

end Scaffold.Cli
