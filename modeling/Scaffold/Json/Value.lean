namespace Scaffold.Json

inductive Number
  | int (n : Int)
  | decimal (mantissa exponent : Int)
  | notFinite
  deriving DecidableEq, Repr

inductive Value
  | null
  | bool (b : Bool)
  | number (n : Number)
  | string (s : String)
  | array (items : List Value)
  | object (members : List (String × Value))

def Value.member? (members : List (String × Value)) (key : String) : Option Value :=
  members.foldl (fun found m => if m.1 = key then some m.2 else found) none

end Scaffold.Json
