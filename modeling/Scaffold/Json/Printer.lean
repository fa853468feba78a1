import Scaffold.Json.Value
import Scaffold.Text.Digits

namespace Scaffold.Json

def escapeChar (c : Char) : List Char :=
  if c = '"' ∨ c = '\\' then ['\\', c]
  else if c = '\x08' then ['\\', 'b']
  else if c = '\x0c' then ['\\', 'f']
  else if c = '\n' then ['\\', 'n']
  else if c = '\r' then ['\\', 'r']
  else if c = '\t' then ['\\', 't']
  else if c.toNat < 0x20 then '\\' :: 'u' :: Text.Digits.write 16 4 c.toNat
  else [c]

def stringText (s : String) : List Char :=
  '"' :: s.toList.flatMap escapeChar ++ ['"']

def Number.text : Number → String
  | .int n => toString n
  | .decimal m e => toString m ++ "e" ++ toString e
  | .notFinite => "NaN"

def spaces (n : Nat) : List Char :=
  List.replicate n ' '

structure Layout where
  lineBreak : Nat → List Char
  colon : List Char

def Layout.compact : Layout := ⟨fun _ => [], [':']⟩

def Layout.indented : Layout := ⟨fun depth => '\n' :: spaces (2 * depth), [':', ' ']⟩

mutual

def print (l : Layout) (depth : Nat) : Value → List Char
  | .null => ['n', 'u', 'l', 'l']
  | .bool true => ['t', 'r', 'u', 'e']
  | .bool false => ['f', 'a', 'l', 's', 'e']
  | .number n => n.text.toList
  | .string s => stringText s
  | .array [] => ['[', ']']
  | .array (v :: vs) =>
    '[' :: l.lineBreak (depth + 1) ++ print l (depth + 1) v ++ printItems l (depth + 1) vs ++
      l.lineBreak depth ++ [']']
  | .object [] => ['{', '}']
  | .object (m :: ms) =>
    '{' :: l.lineBreak (depth + 1) ++ stringText m.1 ++ l.colon ++ print l (depth + 1) m.2 ++
      printMembers l (depth + 1) ms ++ l.lineBreak depth ++ ['}']

def printItems (l : Layout) (depth : Nat) : List Value → List Char
  | [] => []
  | v :: vs => ',' :: l.lineBreak depth ++ print l depth v ++ printItems l depth vs

def printMembers (l : Layout) (depth : Nat) : List (String × Value) → List Char
  | [] => []
  | m :: ms =>
    ',' :: l.lineBreak depth ++ stringText m.1 ++ l.colon ++ print l depth m.2 ++
      printMembers l depth ms

end

def Value.compact (v : Value) : String :=
  String.ofList (print .compact 0 v)

def Value.indented (v : Value) : String :=
  String.ofList (print .indented 0 v)

end Scaffold.Json
