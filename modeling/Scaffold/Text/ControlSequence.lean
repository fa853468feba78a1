namespace Scaffold.Text.ControlSequence

def escape : Char := '\x1b'

def isParameter (c : Char) : Bool :=
  c = ';' || c = '?' || c.isDigit

def lengthAtFront : List Char → Nat
  | c :: '[' :: cs =>
    let parameters := (cs.takeWhile isParameter).length
    if c = escape ∧ (cs.drop parameters).head?.any Char.isAlpha then parameters + 3 else 0
  | _ => 0

def stripFrom : Nat → List Char → List Char
  | _, [] => []
  | gap + 1, _ :: cs => stripFrom gap cs
  | 0, c :: cs =>
    match lengthAtFront (c :: cs) with
    | 0 => c :: stripFrom 0 cs
    | length + 1 => stripFrom length cs

def strip (s : String) : String :=
  if s.toList.contains escape then String.ofList (stripFrom 0 s.toList) else s

end Scaffold.Text.ControlSequence
