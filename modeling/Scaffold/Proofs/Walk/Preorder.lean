import Scaffold.Proofs.Walk.Overlay
import Scaffold.Proofs.Walk.Recursion

namespace Scaffold

mutual

def Tree.pairs (p : Pair) : Tree → List Pair
  | .directory f => p :: f.pairs p
  | _ => [p]

def Forest.pairs (p : Pair) : Forest → List Pair
  | .nil => []
  | .cons n t rest => t.pairs (p.child p.dest n) ++ rest.pairs p

end

open Walk

lemma Tree.pairs_of_leaf {t : Tree} (h : t.entry ≠ .directory) (p : Pair) : t.pairs p = [p] := by
  cases t with
  | directory f => exact absurd rfl h
  | file | link | pipe => rfl

mutual

lemma Tree.within_pairs (t : Tree) {p q : Pair} (hq : q ∈ t.pairs p) : Within p q := by
  by_cases hdir : t.entry = .directory
  · obtain ⟨f, rfl⟩ := Tree.eq_directory hdir
    rcases List.mem_cons.mp hq with rfl | hq
    · exact List.prefix_rfl
    · obtain ⟨n, -, hn⟩ := Forest.within_pairs f hq
      exact (within_child p p.dest n).trans hn
  · rw [Tree.pairs_of_leaf hdir] at hq
    obtain rfl := List.mem_singleton.mp hq
    exact List.prefix_rfl

lemma Forest.within_pairs (f : Forest) {p q : Pair} (hq : q ∈ f.pairs p) :
    ∃ n ∈ f.names, Within (p.child p.dest n) q := by
  cases f with
  | nil => cases hq
  | cons n t rest =>
    rcases List.mem_append.mp hq with hq | hq
    · exact ⟨n, List.mem_cons_self, Tree.within_pairs t hq⟩
    · obtain ⟨m, hm, hwithin⟩ := Forest.within_pairs rest hq
      exact ⟨m, List.mem_cons_of_mem n hm, hwithin⟩

end

mutual

lemma Tree.pairs_ascending (t : Tree) (ht : t.Sorted) (p : Pair) :
    (t.pairs p).Pairwise Before := by
  by_cases hdir : t.entry = .directory
  · obtain ⟨f, rfl⟩ := Tree.eq_directory hdir
    refine List.pairwise_cons.mpr ⟨fun q hq => ?_, Forest.pairs_ascending f ht p⟩
    obtain ⟨n, -, hn⟩ := f.within_pairs hq
    exact (before_child p p.dest n).within hn
  · rw [Tree.pairs_of_leaf hdir]
    exact List.pairwise_singleton _ _

lemma Forest.pairs_ascending (f : Forest) (hf : f.Sorted) (p : Pair) :
    (f.pairs p).Pairwise Before := by
  cases f with
  | nil => exact List.Pairwise.nil
  | cons n t rest =>
    obtain ⟨hn, ht, hrest⟩ := hf
    refine List.pairwise_append.mpr ⟨Tree.pairs_ascending t ht _,
      Forest.pairs_ascending rest hrest p, fun q hq w hw => ?_⟩
    obtain ⟨m, hm, hwithin⟩ := rest.within_pairs hw
    exact ((ahead_of_lt p p.dest (hn m hm)).within (t.within_pairs hq)).within hwithin

end

lemma Tree.entryAt_concat (f : Forest) (names : List Name) (n : Name) :
    (Tree.directory f).entryAt ((names ++ [n]).map Subtype.val).reverse =
      (f.find? n.1).bind fun t => t.entryAt (names.map Subtype.val).reverse := by
  simp [Tree.entryAt]

mutual

lemma Tree.mem_pairs (t : Tree) (ht : t.Sorted) {p q : Pair} : q ∈ t.pairs p ↔
    ∃ names : List Name, q = below p names ∧
      (t.entryAt (names.map Subtype.val).reverse).isSome = true := by
  have hself : (t.entryAt (([] : List Name).map Subtype.val).reverse).isSome = true := by
    rw [List.map_nil, List.reverse_nil, t.entryAt_nil]
    rfl
  by_cases hdir : t.entry = .directory
  · obtain ⟨f, rfl⟩ := Tree.eq_directory hdir
    rw [Tree.pairs, List.mem_cons, Forest.mem_pairs f ht]
    constructor
    · rintro (rfl | ⟨n, names, rfl, hn⟩)
      · exact ⟨[], rfl, hself⟩
      · exact ⟨names ++ [n], (below_concat p names n).symm, by rwa [Tree.entryAt_concat]⟩
    · rintro ⟨names, rfl, hn⟩
      rcases List.eq_nil_or_concat names with rfl | ⟨names, n, rfl⟩
      · exact .inl rfl
      · rw [List.concat_eq_append, Tree.entryAt_concat] at hn
        exact .inr ⟨n, names, by rw [List.concat_eq_append, below_concat], hn⟩
  · rw [Tree.pairs_of_leaf hdir, List.mem_singleton]
    constructor
    · rintro rfl
      exact ⟨[], rfl, hself⟩
    · rintro ⟨names, rfl, hn⟩
      rcases List.eq_nil_or_concat names with rfl | ⟨names, n, rfl⟩
      · rfl
      · rw [List.concat_eq_append, List.map_append, List.reverse_append, List.map_singleton,
          List.reverse_singleton, List.singleton_append, Tree.entryAt_of_leaf hdir] at hn
        cases hn

lemma Forest.mem_pairs (f : Forest) (hf : f.Sorted) {p q : Pair} : q ∈ f.pairs p ↔
    ∃ n names, q = below (p.child p.dest n) names ∧
      ((f.find? n.1).bind fun t => t.entryAt (names.map Subtype.val).reverse).isSome = true := by
  cases f with
  | nil => simp [Forest.pairs, Forest.find?]
  | cons n t rest =>
    rw [Forest.pairs, List.mem_append, Tree.mem_pairs t hf.2.1, Forest.mem_pairs rest hf.2.2]
    constructor
    · rintro (⟨names, rfl, hn⟩ | ⟨m, names, rfl, hm⟩)
      · exact ⟨n, names, rfl, by rwa [Forest.find?_cons_self]⟩
      · obtain ⟨e, he⟩ := Option.isSome_iff_exists.mp hm
        obtain ⟨u, hu, hue⟩ := Option.bind_eq_some_iff.mp he
        exact ⟨m, names, rfl, by rw [hf.find?_rest hu, Option.bind_some, hue]; rfl⟩
    · rintro ⟨m, names, rfl, hm⟩
      by_cases hne : n.1 = m.1
      · obtain rfl : n = m := Subtype.ext hne
        rw [Forest.find?_cons_self] at hm
        exact .inl ⟨names, rfl, hm⟩
      · rw [Forest.find?, if_neg hne] at hm
        exact .inr ⟨m, names, rfl, hm⟩

end

namespace Walk

open Attempt FileAction FileSystem

structure Lists (fs : FileSystem) (p : Pair) (S : Location) (pairs : List Pair) : Prop where
  ascending : pairs.Pairwise Before
  mem : ∀ q, q ∈ pairs ↔ ∃ names : List Name, q = below p names ∧
    (fs.get? (names.map Subtype.val ++ S)).isSome = true

lemma lists_of_holds {fs : FileSystem} {S : Location} {t : Tree} (ht : fs.Holds S t)
    (hs : t.Sorted) (p : Pair) : Lists fs p S (t.pairs p) := by
  refine ⟨t.pairs_ascending hs p, fun q => ?_⟩
  rw [t.mem_pairs hs]
  simp only [← ht _, List.reverse_reverse]

end Walk

end Scaffold
