import Std.Data.ExtTreeMap
import Scaffold.Path

/-!
File systems as finite maps from locations to entries, closed under taking the parent directory.
-/

namespace Scaffold

/-- The names on the way from the root, last first. Unlike a path it passes through no link. -/
abbrev Location := List String

namespace Location

def compareDepth : Location → Location → Ordering
  | [], [] => .eq
  | [], _ :: _ => .lt
  | _ :: _, [] => .gt
  | _ :: a, _ :: b => compareDepth a b

def order (a b : Location) : Ordering :=
  (compareDepth a b).then (compare a b)

theorem compareDepth_eq (a b : Location) : compareDepth a b = compare a.length b.length := by
  induction a generalizing b with
  | nil => cases b <;> simp [compareDepth, Nat.compare_eq_ite_lt]
  | cons _ a ih => cases b <;> simp [compareDepth, ih, Nat.compare_eq_ite_lt]

theorem order_eq : order = compareLex (compareOn List.length) compare := by
  funext a b
  simp [order, compareDepth_eq, compareLex, compareOn]

instance orderTrans : Std.TransCmp order :=
  order_eq ▸ inferInstanceAs (Std.TransCmp (compareLex (compareOn List.length) compare))

instance orderLawful : Std.LawfulEqCmp order where
  eq_of_compare h := by
    simp only [order, Ordering.then_eq_eq] at h
    exact Std.LawfulEqCmp.eq_of_compare h.2
  compare_self := by simp [order, compareDepth_eq]

end Location

instance bytesDecidableEq : DecidableEq ByteArray := ByteArray.instDecidableEq

inductive Entry
  | directory
  | file (bytes : ByteArray) (mode : Nat)
  | link (target : String)
  | pipe
  deriving DecidableEq

def nameLimit : Nat := 255

def pathLimit : Nat := 4095

def isEntryName (n : String) : Bool :=
  isName n && n ≠ ".." && !n.toList.contains '\x00' && n.utf8ByteSize ≤ nameLimit

/-- Every entry lies in a directory. Relative paths begin at `workDir`, which may have been taken
away: then they lead nowhere. -/
structure FileSystem where
  entries : Std.ExtTreeMap Location Entry Location.order
  workDir : Location
  root : entries[([] : Location)]? = some .directory
  closed : ∀ n loc, n :: loc ∈ entries →
    isEntryName n = true ∧ entries[loc]? = some .directory

namespace FileSystem

def empty : FileSystem where
  entries := (∅ : Std.ExtTreeMap Location Entry Location.order).insert [] .directory
  workDir := []
  root := by simp
  closed n loc h := by simp [Std.ExtTreeMap.mem_insert] at h

def get? (fs : FileSystem) (loc : Location) : Option Entry :=
  fs.entries[loc]?

def names (fs : FileSystem) (loc : Location) : List String :=
  fs.entries.keys.filterMap fun
    | [] => none
    | n :: parent => if parent == loc then some n else none

def canHold (fs : FileSystem) : Location → Bool
  | [] => false
  | n :: parent => isEntryName n && fs.get? parent = some .directory

theorem ne_of_canHold (fs : FileSystem) (loc : Location) (h : fs.canHold loc = true) : loc ≠ [] := by
  rintro rfl
  simp [canHold] at h

def set (fs : FileSystem) (loc : Location) (e : Entry) : FileSystem :=
  if h : fs.canHold loc = true ∧ fs.get? loc ≠ some .directory then
    { entries := fs.entries.insert loc e
      workDir := fs.workDir
      root := by
        rw [Std.ExtTreeMap.getElem?_insert]
        have := fs.ne_of_canHold loc h.1
        simp [this, fs.root]
      closed := by
        intro n l hm
        have hp : ∀ l, fs.get? l = some .directory →
            (fs.entries.insert loc e)[l]? = some .directory := by
          intro l hl
          rw [Std.ExtTreeMap.getElem?_insert]
          by_cases he : loc = l
          · exact absurd (he ▸ hl) h.2
          · simpa [he, get?] using hl
        rw [Std.ExtTreeMap.mem_insert] at hm
        by_cases he : loc = n :: l
        · have hc := h.1
          simp only [he, canHold, Bool.and_eq_true, decide_eq_true_eq] at hc
          exact ⟨hc.1, hp l hc.2⟩
        · obtain ⟨hn, hl⟩ := fs.closed n l (by simpa [he] using hm)
          exact ⟨hn, hp l hl⟩ }
  else fs

def erase (fs : FileSystem) (loc : Location) : FileSystem :=
  if h : fs.get? loc ≠ some .directory then
    { entries := fs.entries.erase loc
      workDir := fs.workDir
      root := by
        rw [Std.ExtTreeMap.getElem?_erase]
        by_cases he : loc = []
        · exact absurd (he ▸ fs.root) h
        · simp [he, fs.root]
      closed := by
        intro n l hm
        rw [Std.ExtTreeMap.mem_erase] at hm
        obtain ⟨hn, hl⟩ := fs.closed n l hm.2
        refine ⟨hn, ?_⟩
        rw [Std.ExtTreeMap.getElem?_erase]
        by_cases he : loc = l
        · exact absurd (he ▸ hl) h
        · simpa [he] using hl }
  else fs

def eraseTree (fs : FileSystem) (loc : Location) : FileSystem :=
  if h : loc = [] then fs
  else
    { entries := fs.entries.filter fun l _ => decide (¬ loc <:+ l)
      workDir := fs.workDir
      root := by
        rw [Std.ExtTreeMap.getElem?_filter]
        simpa [fs.root] using h
      closed := by
        intro n l hm
        rw [Std.ExtTreeMap.mem_filter] at hm
        obtain ⟨hm, hs⟩ := hm
        obtain ⟨hn, hl⟩ := fs.closed n l hm
        refine ⟨hn, ?_⟩
        rw [Std.ExtTreeMap.getElem?_filter]
        rw [Std.ExtTreeMap.getKey_eq] at hs
        have hk : ¬ loc <:+ l := fun hsuf =>
          of_decide_eq_true hs (hsuf.trans (List.suffix_cons n l))
        simp [hl, hk] }

def eraseBelow (fs : FileSystem) (loc : Location) : FileSystem where
  entries := fs.entries.filter fun l _ => decide (loc <:+ l → l = loc)
  workDir := fs.workDir
  root := by
    rw [Std.ExtTreeMap.getElem?_filter]
    simp [fs.root, eq_comm, Option.filter]
  closed := by
    intro n l hm
    rw [Std.ExtTreeMap.mem_filter] at hm
    obtain ⟨hm, hs⟩ := hm
    obtain ⟨hn, hl⟩ := fs.closed n l hm
    refine ⟨hn, ?_⟩
    rw [Std.ExtTreeMap.getElem?_filter]
    rw [Std.ExtTreeMap.getKey_eq] at hs
    have hk : ¬ loc <:+ l := fun hsuf => by
      have he := of_decide_eq_true hs (hsuf.trans (List.suffix_cons n l))
      have hlen := hsuf.length_le
      simp only [← he, List.length_cons] at hlen
      omega
    simp [hl, hk]

theorem get?_root (fs : FileSystem) : fs.get? [] = some .directory :=
  fs.root

theorem get?_set (fs : FileSystem) (loc l : Location) (e : Entry) (hc : fs.canHold loc = true)
    (hd : fs.get? loc ≠ some .directory) :
    (fs.set loc e).get? l = if l = loc then some e else fs.get? l := by
  rw [set, dif_pos ⟨hc, hd⟩]
  change (fs.entries.insert loc e)[l]? = _
  rw [Std.ExtTreeMap.getElem?_insert]
  by_cases h : loc = l
  · simp [h]
  · simp [h, Ne.symm h, get?]

theorem get?_erase (fs : FileSystem) (loc l : Location) (hd : fs.get? loc ≠ some .directory) :
    (fs.erase loc).get? l = if l = loc then none else fs.get? l := by
  rw [erase, dif_pos hd]
  change (fs.entries.erase loc)[l]? = _
  rw [Std.ExtTreeMap.getElem?_erase]
  by_cases h : loc = l
  · simp [h]
  · simp [h, Ne.symm h, get?]

theorem get?_eraseTree (fs : FileSystem) (loc l : Location) (h : loc ≠ []) :
    (fs.eraseTree loc).get? l = if loc <:+ l then none else fs.get? l := by
  rw [eraseTree, dif_neg h]
  change (fs.entries.filter fun l _ => decide (¬ loc <:+ l))[l]? = _
  rw [Std.ExtTreeMap.getElem?_filter']
  by_cases hs : loc <:+ l
  · simp [hs]
  · cases hl : fs.entries[l]? <;> simp [hs, get?, hl]

theorem get?_eraseBelow (fs : FileSystem) (loc l : Location) :
    (fs.eraseBelow loc).get? l = if loc <:+ l ∧ l ≠ loc then none else fs.get? l := by
  change (fs.entries.filter fun l _ => decide (loc <:+ l → l = loc))[l]? = _
  rw [Std.ExtTreeMap.getElem?_filter']
  by_cases hs : loc <:+ l
  · by_cases he : l = loc
    · subst he
      cases hl : fs.entries[l]? <;> simp [get?, hl]
    · cases hl : fs.entries[l]? <;> simp [hs, he]
  · cases hl : fs.entries[l]? <;> simp [hs, get?, hl]

theorem mem_names (fs : FileSystem) (loc : Location) (n : String) :
    n ∈ fs.names loc ↔ (fs.get? (n :: loc)).isSome := by
  simp only [names, List.mem_filterMap, get?]
  constructor
  · rintro ⟨k, hk, h⟩
    cases k with
    | nil => simp at h
    | cons m parent =>
      simp only [beq_iff_eq, Option.ite_none_right_eq_some, Option.some.injEq] at h
      obtain ⟨rfl, rfl⟩ := h
      simpa using hk
  · intro h
    exact ⟨n :: loc, by simpa using h, by simp⟩

end FileSystem

end Scaffold
