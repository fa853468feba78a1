import Scaffold.Hook.Host

/-!
Walks over trees of entries. What is still to be visited stands in a list, and the children of an
entry go in front of everything else, so that entries are visited in the order of a recursive walk.
A walk ends because paths cannot grow beyond what the system takes.
-/

namespace Scaffold

structure Pair where
  source : Path
  dest : Path
  deriving DecidableEq

def Pair.child (p : Pair) (out : Path) (n : Name) : Pair :=
  ⟨p.source.child n, out.child n⟩

abbrev Visit := Pair → FileAction (Path × List Name)

namespace Walk

def budget (p : Pair) : Nat :=
  pathLimit - p.source.names.length

inductive Below : List Nat → List Nat → Prop
  | replace (n : Nat) (smaller rest : List Nat) (h : ∀ m ∈ smaller, m < n) :
      Below (smaller ++ rest) (n :: rest)

theorem acc_cons (n : Nat) (rest : List Nat) (h : Acc Below rest) : Acc Below (n :: rest) := by
  induction n using Nat.strongRecOn generalizing rest with
  | _ n ih =>
    refine Acc.intro _ fun l hl => ?_
    cases hl with
    | replace _ smaller _ hs =>
      induction smaller with
      | nil => exact h
      | cons m ms ihm =>
        have hm := ihm fun x hx => hs x (List.mem_cons_of_mem m hx)
        exact ih m (hs m List.mem_cons_self) (ms ++ rest) hm

theorem acc (l : List Nat) : Acc Below l := by
  induction l with
  | nil => exact Acc.intro _ fun _ h => nomatch h
  | cons n rest ih => exact acc_cons n rest ih

structure Budgets where
  list : List Nat

instance : WellFoundedRelation Budgets where
  rel a b := Below a.list b.list
  wf := InvImage.wf Budgets.list ⟨acc⟩

theorem budget_child_lt (p : Pair) (out : Path) (n : Name)
    (h : p.source.names.length < pathLimit) : budget (p.child out n) < budget p := by
  simp only [budget, Pair.child, Path.child, List.length_cons]
  omega

/-- Visits everything on a work list, up to the first failure. Nothing is found at a path of more
names than a path may have bytes, so children below such a path need no visit. -/
def run (visit : Visit) (work : List Pair) (fs : FileSystem) : Except Failure Unit × FileSystem :=
  match work with
  | [] => (.ok (), fs)
  | p :: rest =>
    match visit p fs with
    | (.error e, fs) => (.error e, fs)
    | (.ok (out, names), fs) =>
      if p.source.names.length < pathLimit then run visit (names.map (p.child out) ++ rest) fs
      else run visit rest fs
termination_by (⟨work.map budget⟩ : Budgets)
decreasing_by
  · simp only [List.map_append, List.map_map, List.map_cons]
    refine Below.replace _ _ _ fun m hm => ?_
    obtain ⟨n, _, rfl⟩ := List.mem_map.1 hm
    exact budget_child_lt p out n ‹_›
  · exact Below.replace (budget p) [] _ (by simp)

end Walk

end Scaffold
