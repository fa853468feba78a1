import Scaffold.Json.Value
import Scaffold.Text.Utf8

namespace Scaffold.Json

abbrev Content := Except Text.Utf8.Fault String

/-- `broken` stands where the text of a value stops being JSON. The containers around it hold what
was read before and end with it. -/
inductive Draft
  | null
  | bool (b : Bool)
  | number (n : Number)
  | string (s : Content)
  | array (items : List Draft)
  | object (members : List (Content × Draft))
  | broken

namespace Draft

mutual

def isWhole : Draft → Bool
  | .array items => itemsWhole items
  | .object members => membersWhole members
  | .broken => false
  | _ => true

def itemsWhole : List Draft → Bool
  | [] => true
  | d :: ds => d.isWhole && itemsWhole ds

def membersWhole : List (Content × Draft) → Bool
  | [] => true
  | m :: ms => m.2.isWhole && membersWhole ms

end

mutual

def value? : Draft → Option Value
  | .null => some .null
  | .bool b => some (.bool b)
  | .number n => some (.number n)
  | .string (.ok s) => some (.string s)
  | .string (.error _) => none
  | .array items => (itemValues? items).map .array
  | .object members => (memberValues? members).map .object
  | .broken => none

def itemValues? : List Draft → Option (List Value)
  | [] => some []
  | d :: ds =>
    match d.value?, itemValues? ds with
    | some v, some vs => some (v :: vs)
    | _, _ => none

def memberValues? : List (Content × Draft) → Option (List (String × Value))
  | [] => some []
  | m :: ms =>
    match m.1, m.2.value?, memberValues? ms with
    | .ok k, some v, some vs => some ((k, v) :: vs)
    | _, _, _ => none

end

mutual

def ofValue : Value → Draft
  | .null => .null
  | .bool b => .bool b
  | .number n => .number n
  | .string s => .string (.ok s)
  | .array items => .array (ofItems items)
  | .object members => .object (ofMembers members)

def ofItems : List Value → List Draft
  | [] => []
  | v :: vs => ofValue v :: ofItems vs

def ofMembers : List (String × Value) → List (Content × Draft)
  | [] => []
  | m :: ms => (.ok m.1, ofValue m.2) :: ofMembers ms

end

end Draft

end Scaffold.Json
