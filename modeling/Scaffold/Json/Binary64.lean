/-!
The numbers that fit into 64 bits with a binary exponent, and the nearest of them to a decimal. A
magnitude is counted in units of the smallest one that is not zero.
-/

namespace Scaffold.Json.Binary64

def one : Nat := Nat.pow 2 1074

def limit : Nat := Nat.pow 2 1024 * one

def step (units : Nat) : Nat :=
  Nat.pow 2 (units.log2 - 52)

def roundedQuotient (num den : Nat) : Nat :=
  let q := num / den
  let r := num % den
  if 2 * r < den then q else if den < 2 * r then q + 1 else q + q % 2

def nearest (num den : Nat) : Nat :=
  let s := step (num * one / den)
  roundedQuotient (num * one) (den * s) * s

def ofDecimal? (m : Nat) (e : Int) : Option Nat :=
  if m = 0 then some 0
  else if 400 < e then none
  else if e < -(m.log2 + 400 : Nat) then some 0
  else
    let units := if 0 ≤ e then nearest (m * Nat.pow 10 e.toNat) 1 else nearest m (Nat.pow 10 (-e).toNat)
    if units < limit then some units else none

def whole? (units : Nat) : Option Nat :=
  if units % one = 0 then some (units / one) else none

end Scaffold.Json.Binary64
