import Scaffold.FileSystem.Operations
import Scaffold.Failure
import Scaffold.Json.Binary64
import Scaffold.Json.Reader

/-!
Reading manifests from JSON. All problems of a document are collected, section by section.
-/

namespace Scaffold.Manifest

open Json (Value Number)

def dialect : Json.Dialect := ⟨true, some 200, some 4300⟩

abbrev Checked (α : Type) := Except (List Problem) α

def problem {α : Type} (kind : ProblemKind) (place : List String) : Checked α :=
  .error [⟨kind, place⟩]

def trueWords : List String := ["1", "t", "true", "y", "yes", "on"]

def falseWords : List String := ["0", "f", "false", "n", "no", "off"]

def ofWord? (s : String) : Option Bool :=
  let w := String.ofList (s.toList.map Char.toLower)
  if w ∈ trueWords then some true else if w ∈ falseWords then some false else none

def intLimit : Nat := 1000000000000000000

def decimalLimit : Nat := 9223372036854775808

def whole? : Number → Option Int
  | .int n => if n.natAbs < intLimit then some n else none
  | .decimal m e =>
    match (Json.Binary64.ofDecimal? m.natAbs e).bind Json.Binary64.whole? with
    | some k => if k < decimalLimit then some (m.sign * k) else none
    | none => none
  | .notFinite => none

def checkNumber (n : Number) (place : List String) : Checked Bool :=
  match whole? n with
  | none => problem .notBool place
  | some k => if k = 0 then .ok false else if k = 1 then .ok true else problem .unclearBool place

def checkBool (v : Value) (place : List String) : Checked Bool :=
  match v with
  | .bool b => .ok b
  | .number n => checkNumber n place
  | .string s =>
    match ofWord? s with
    | some b => .ok b
    | none => problem .unclearBool place
  | _ => problem .notBool place

def checkCommand (v : Value) (place : List String) : Checked (Option String) :=
  match v with
  | .string s => .ok (some s)
  | .null => .ok none
  | _ => problem .notString place

def checkText (place : List String) : Value → Checked String
  | .string s => .ok s
  | _ => problem .notString place

def checkAction (place : List String) : Value → Checked Action
  | .string s =>
    match Action.ofName? s with
    | some a => .ok a
    | none => problem .unknownAction place
  | _ => problem .unknownAction place

def both {α β : Type} (a : Checked α) (b : Checked β) : Checked (α × β) :=
  match a, b with
  | .ok x, .ok y => .ok (x, y)
  | .error ps, .ok _ => .error ps
  | .ok _, .error qs => .error qs
  | .error ps, .error qs => .error (ps ++ qs)

def checkRule (key : String) : Value → Checked FileRule
  | .string s =>
    (checkAction ["files", key, "action"] (.string s)).map fun a => ⟨a, ""⟩
  | .object members =>
    let action := match Value.member? members "action" with
      | none => .ok .auto
      | some v => checkAction ["files", key, "action"] v
    let name := match Value.member? members "name" with
      | none => .ok ""
      | some v => checkText ["files", key, "name"] v
    (both action name).map fun r => ⟨r.1, r.2⟩
  | _ => problem .notObject ["files", key]

def checkAll {α : Type} (check : String → Value → Checked α) :
    List (String × Value) → Checked (List (String × α))
  | [] => .ok []
  | (k, v) :: rest =>
    (both (check k v) (checkAll check rest)).map fun r => (k, r.1) :: r.2

def checkDictionary {α : Type} (key : String → String) (check : String → Value → Checked α)
    (v : Value) (place : List String) : Checked (Bindings α) :=
  match v with
  | .null => .ok ∅
  | .object members =>
    let members := (Bindings.ofList members).entries.map fun m => (key m.1, m.2)
    (checkAll check (Bindings.ofList members).entries).map .ofList
  | _ => problem .notDictionary place

def section? (members : List (String × Value)) (names : List String) : Option (String × Value) :=
  names.findSome? fun name => (Value.member? members name).map (name, ·)

def checkSection {α : Type} (found : Option (String × Value)) (absent : α)
    (check : Value → List String → Checked α) : Checked α :=
  match found with
  | none => .ok absent
  | some (name, v) => check v [name]

def check : Value → Checked Manifest
  | .object members =>
    let pre := checkSection (section? members ["preCommand", "pre_command"]) none checkCommand
    let post := checkSection (section? members ["postCommand", "post_command"]) none checkCommand
    let expand :=
      checkSection (section? members ["expandVariables", "expand_variables"]) false checkBool
    let files := checkSection (section? members ["files"]) ∅
      (checkDictionary canonicalKey checkRule)
    let vars := checkSection (section? members ["vars"]) ∅
      (checkDictionary id fun name => checkText ["vars", name])
    (both pre (both post (both expand (both files vars)))).map fun (a, b, c, d, e) =>
      ⟨a, b, c, d, e⟩
  | _ => problem .notObject []

def decode (bytes : ByteArray) : Checked Manifest :=
  match Text.Utf8.decode bytes with
  | .error _ => problem .notJson []
  | .ok s =>
    match Json.parse? dialect s.toList with
    | some v => check v
    | none => problem .notJson []

def load (fs : FileSystem) (path : Path) : Except Failure Manifest :=
  match fs.readFile path with
  | .error r =>
    let o := Obstacle.refused r path.text
    .error (if o.isSystem then .manifestUnreadable path o else .obstacle o)
  | .ok bytes => (decode bytes).mapError (.manifestInvalid path)

end Scaffold.Manifest
