namespace Scaffold.Text

structure CharSource where
  pending : Option Char
  chars : List Char
  deriving DecidableEq, Repr

namespace CharSource

def ofList (cs : List Char) : CharSource := ⟨none, cs⟩

def remaining (s : CharSource) : List Char :=
  match s.pending with
  | none => s.chars
  | some c => c :: s.chars

def next (s : CharSource) : Option Char × CharSource :=
  match s.pending with
  | some c => (some c, ⟨none, s.chars⟩)
  | none =>
    match s.chars with
    | [] => (none, s)
    | c :: cs => (some c, ⟨none, cs⟩)

def pushBack (s : CharSource) (c : Char) : CharSource := ⟨some c, s.chars⟩

theorem remaining_pushBack (s : CharSource) (c : Char) :
    (s.pushBack c).remaining = c :: s.chars := rfl

end CharSource

end Scaffold.Text
