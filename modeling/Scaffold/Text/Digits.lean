namespace Scaffold.Text.Digits

def digit (d : Nat) : Char :=
  if d < 10 then Char.ofNat ('0'.toNat + d) else Char.ofNat ('a'.toNat + (d - 10))

def value? (c : Char) : Option Nat :=
  if c.isDigit then some (c.toNat - '0'.toNat)
  else if 'a' ≤ c ∧ c ≤ 'f' then some (c.toNat - 'a'.toNat + 10)
  else if 'A' ≤ c ∧ c ≤ 'F' then some (c.toNat - 'A'.toNat + 10)
  else none

def write (base : Nat) : Nat → Nat → List Char
  | 0, _ => []
  | width + 1, n => write base width (n / base) ++ [digit (n % base)]

def read (base : Nat) (cs : List Char) : Nat :=
  cs.foldl (fun n c => n * base + (value? c).getD 0) 0

theorem value?_digit (d : Nat) (h : d < 16) : value? (digit d) = some d := by
  revert d
  decide

end Scaffold.Text.Digits
