import Scaffold.Json.Binary64
import Scaffold.Json.Printer
import Scaffold.Json.Reader
import Scaffold.Walk.Copy

namespace Scaffold

structure Alias where
  template : String
  vars : Bindings String
  deriving DecidableEq

structure Config where
  vars : Bindings String
  aliases : Bindings Alias
  deriving DecidableEq

namespace Config

open Json (Value Draft Content Number)

def empty : Config := ⟨∅, ∅⟩

def insertVar (c : Config) (name value : String) : Config :=
  { c with vars := c.vars.insert name value }

def eraseVar? (c : Config) (name : String) : Option Config :=
  (c.vars.get? name).map fun _ => { c with vars := c.vars.erase name }

def insertAlias (c : Config) (name template : String) (vars : Bindings String) : Config :=
  { c with aliases := c.aliases.insert name ⟨template, vars⟩ }

def eraseAlias (c : Config) (name : String) : Except Failure Config :=
  match c.aliases.get? name with
  | none => .error (.noAlias name)
  | some _ => .ok { c with aliases := c.aliases.erase name }

def resolve (c : Config) (name : String) : String × Bindings String :=
  match c.aliases.get? name with
  | none => (name, ∅)
  | some a => (a.template, a.vars)

def bindingsValue (b : Bindings String) : Value :=
  .object (b.entries.map fun e => (e.1, .string e.2))

def aliasValue (a : Alias) : Value :=
  .object [("template", .string a.template), ("vars", bindingsValue a.vars)]

def toValue (c : Config) : Value :=
  .object [("vars", bindingsValue c.vars),
    ("aliases", .object (c.aliases.entries.map fun e => (e.1, aliasValue e.2)))]

def isInt (n : Int) : Bool :=
  -9223372036854775808 ≤ n && n ≤ 18446744073709551615

def kindName : Draft → String
  | .null => "null"
  | .bool _ => "bool"
  | .number (.int n) => if isInt n then "int" else "float"
  | .number _ => "float"
  | .string _ => "str"
  | .array _ => "array"
  | .object _ => "object"
  | .broken => ""

def isOutOfRange : Number → Bool
  | .int n => (Json.Binary64.ofDecimal? n.natAbs 0).isNone
  | .decimal m e => (Json.Binary64.ofDecimal? m.natAbs e).isNone
  | .notFinite => false

def mismatch {α : Type} (expected place : String) (d : Draft) : Except ConfigFault α :=
  match d with
  | .broken => .error .notJson
  | .number n =>
    if isOutOfRange n then .error (.outOfRange place)
    else .error (.wrongKind expected (kindName d) place)
  | d => .error (.wrongKind expected (kindName d) place)

def readContent (c : Content) : Except ConfigFault String :=
  c.mapError .notText

def readText (place : String) : Draft → Except ConfigFault String
  | .string c => readContent c
  | d => mismatch "str" place d

def readMembers {α : Type} (read : α → Content → Draft → Except ConfigFault α) :
    α → List (Content × Draft) → Except ConfigFault α
  | a, [] => .ok a
  | a, (k, d) :: rest =>
    match read a k d with
    | .error e => .error e
    | .ok b => readMembers read b rest

def readDictionary {α : Type} (place : String) (read : String → Draft → Except ConfigFault α) :
    Draft → Except ConfigFault (Bindings α)
  | .object members =>
    let member := fun (b : Bindings α) k d =>
      match readContent k with
      | .error e => .error e
      | .ok key => (read (place ++ "[...]") d).map (b.insert key)
    readMembers member ∅ members
  | d => mismatch "object" place d

def skip {α : Type} (a : α) (d : Draft) : Except ConfigFault α :=
  if d.isWhole then .ok a else .error .notJson

def readAlias (place : String) : Draft → Except ConfigFault Alias
  | .object members =>
    let member := fun (a : Option String × Bindings String) (k : Content) d =>
      match k with
      | .ok "template" => (readText (place ++ ".template") d).map fun t => (some t, a.2)
      | .ok "vars" => (readDictionary (place ++ ".vars") readText d).map fun b => (a.1, b)
      | _ => skip a d
    match readMembers member (none, ∅) members with
    | .error e => .error e
    | .ok (none, _) => .error (.noTemplateField place)
    | .ok (some t, vars) => .ok ⟨t, vars⟩
  | d => mismatch "object" place d

def readConfig : Draft → Except ConfigFault Config
  | .object members =>
    let member := fun (c : Config) (k : Content) d =>
      match k with
      | .ok "vars" => (readDictionary "$.vars" readText d).map fun b => { c with vars := b }
      | .ok "aliases" =>
        (readDictionary "$.aliases" readAlias d).map fun b => { c with aliases := b }
      | _ => skip c d
    readMembers member empty members
  | d => mismatch "object" "$" d

def decode (bytes : ByteArray) : Except ConfigFault Config :=
  let doc := Json.read .standard (Text.Utf8.piecesOf bytes)
  match readConfig doc.draft with
  | .error e => .error e
  | .ok c => if doc.complete then .ok c else .error .notJson

def encode (c : Config) : ByteArray :=
  c.toValue.indented.toUTF8

open Attempt FileAction

def load (p : Path) : FileAction Config := do
  if ← ask FileSystem.exists? p then
    let bytes ← ask FileSystem.readFile p
    match decode bytes with
    | .ok c => pure c
    | .error (.notText f) => fail (.obstacle (.undecodable f))
    | .error e => fail (.configInvalid p e)
  else pure empty

def save (c : Config) (p : Path) : FileAction Unit := do
  makeDirectories p.parent
  change (·.writeFile · c.encode) p

end Config

end Scaffold
