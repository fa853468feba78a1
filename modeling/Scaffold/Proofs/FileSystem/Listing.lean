import Mathlib.Data.List.Sort
import Scaffold.Proofs.FileSystem.Reaching
import Scaffold.Proofs.FileSystem.Trees

namespace Scaffold

mutual

def Tree.Sorted : Tree → Prop
  | .directory f => f.Sorted
  | _ => True

def Forest.Sorted : Forest → Prop
  | .nil => True
  | .cons n t rest => (∀ m ∈ rest.names, n.1 < m.1) ∧ t.Sorted ∧ rest.Sorted

end

lemma Forest.Sorted.pairwise {f : Forest} (h : f.Sorted) :
    (f.names.map Subtype.val).Pairwise (· < ·) := by
  cases f with
  | nil => exact .nil
  | cons n t rest =>
    obtain ⟨hn, -, hr⟩ := h
    refine List.pairwise_cons.mpr ⟨fun k hk => ?_, Forest.Sorted.pairwise hr⟩
    obtain ⟨m, hm, rfl⟩ := List.mem_map.mp hk
    exact hn m hm

lemma Forest.Sorted.find? {f : Forest} (h : f.Sorted) {k : String} {t : Tree}
    (ht : f.find? k = some t) : t.Sorted := by
  cases f with
  | nil => cases ht
  | cons n u rest =>
    obtain ⟨-, hu, hr⟩ := h
    by_cases hk : n.1 = k
    · simp only [Forest.find?, hk, if_true, Option.some.injEq] at ht
      exact ht ▸ hu
    · rw [Forest.find?, if_neg hk] at ht
      exact Forest.Sorted.find? hr ht

lemma Forest.mem_names {f : Forest} {k : String} :
    k ∈ f.names.map Subtype.val ↔ (f.find? k).isSome := by
  rw [f.find?_isSome_iff, List.mem_map]

lemma Forest.find?_of_lt {f : Forest} {k : String} (h : ∀ m ∈ f.names, k < m.1) :
    f.find? k = none := by
  rw [← Option.not_isSome_iff_eq_none, f.find?_isSome_iff]
  rintro ⟨m, hm, rfl⟩
  exact String.lt_irrefl m.1 (h m hm)

lemma Forest.find?_cons_self (n : Name) (t : Tree) (rest : Forest) :
    (Forest.cons n t rest).find? n.1 = some t := by
  rw [Forest.find?, if_pos rfl]

lemma Forest.Sorted.find?_rest {n : Name} {t : Tree} {rest : Forest}
    (h : (Forest.cons n t rest).Sorted) {k : String} {u : Tree} (hu : rest.find? k = some u) :
    (Forest.cons n t rest).find? k = some u := by
  obtain ⟨m, hm, rfl⟩ := (rest.find?_isSome_iff k).mp (by rw [hu]; rfl)
  have hne : ¬ n.1 = m.1 := fun he => String.lt_irrefl m.1 (he ▸ h.1 m hm)
  rw [Forest.find?, if_neg hne, hu]

lemma Forest.Sorted.first_le {n : Name} {t : Tree} {rest : Forest}
    (h : (Forest.cons n t rest).Sorted) {k : String}
    (hk : ((Forest.cons n t rest).find? k).isSome) : n.1 ≤ k := by
  obtain ⟨m, hm, rfl⟩ := (Forest.find?_isSome_iff _ k).mp hk
  rcases List.mem_cons.mp hm with rfl | hm
  · exact String.le_refl _
  · exact String.not_lt.mp (String.lt_asymm (h.1 m hm))

mutual

lemma Tree.eq_of_entryAt (t u : Tree) (ht : t.Sorted) (hu : u.Sorted)
    (h : ∀ ks, t.entryAt ks = u.entryAt ks) : t = u := by
  have he : t.entry = u.entry := by simpa [Tree.entryAt_nil] using h []
  cases t with
  | directory f =>
    obtain ⟨g, rfl⟩ := Tree.eq_directory he.symm
    exact congrArg Tree.directory (Forest.eq_of_entryAt f g ht hu fun k ks => h (k :: ks))
  | file | link | pipe =>
    cases u with
    | directory g => cases he
    | file | link | pipe => cases he <;> rfl

lemma Forest.eq_of_entryAt (f g : Forest) (hf : f.Sorted) (hg : g.Sorted)
    (h : ∀ k ks, (f.find? k).bind (fun t => t.entryAt ks) =
      (g.find? k).bind fun t => t.entryAt ks) : f = g := by
  cases f with
  | nil =>
    cases g with
    | nil => rfl
    | cons m u g =>
      have hm := h m.1 []
      simp [Forest.find?, Tree.entryAt_nil] at hm
  | cons n t f =>
    cases g with
    | nil =>
      have hn := h n.1 []
      simp [Forest.find?, Tree.entryAt_nil] at hn
    | cons m u g =>
      have hnm : n = m := by
        have hn := h n.1 []
        have hm := h m.1 []
        rw [Forest.find?_cons_self] at hn hm
        have hmn : m.1 ≤ n.1 := hg.first_le (by
          cases hs : (Forest.cons m u g).find? n.1 <;> simp [hs, Tree.entryAt_nil] at hn ⊢)
        have hnm : n.1 ≤ m.1 := hf.first_le (by
          cases hs : (Forest.cons n t f).find? m.1 <;> simp [hs, Tree.entryAt_nil] at hm ⊢)
        exact Subtype.ext (String.le_antisymm hnm hmn)
      subst hnm
      have htu : t = u := Tree.eq_of_entryAt t u hf.2.1 hg.2.1 fun ks => by
        simpa [Forest.find?_cons_self] using h n.1 ks
      have hfg : f = g := Forest.eq_of_entryAt f g hf.2.2 hg.2.2 fun k ks => by
        by_cases hk : n.1 = k
        · subst hk
          rw [Forest.find?_of_lt hf.1, Forest.find?_of_lt hg.1]
        · simpa [Forest.find?, hk] using h k ks
      rw [htu, hfg]

end

namespace FileSystem

lemma names_pairwise (fs : FileSystem) (loc : Location) : (fs.names loc).Pairwise (· < ·) := by
  refine List.Pairwise.filterMap _ ?_ fs.entries.ordered_keys
  intro a b hab n hn m hm
  cases a with
  | nil => cases hn
  | cons a la =>
    cases b with
    | nil => cases hm
    | cons b lb =>
      simp only [beq_iff_eq, Option.ite_none_right_eq_some, Option.some.injEq] at hn hm
      obtain ⟨rfl, rfl⟩ := hn
      obtain ⟨rfl, rfl⟩ := hm
      have hlt : compare a b = .lt := by
        simpa [Location.order, Location.compareDepth_eq] using hab
      exact compareOfLessAndEq_eq_lt.mp hlt

lemma Holds.unique {fs : FileSystem} {loc : Location} {t u : Tree} (ht : fs.Holds loc t)
    (hu : fs.Holds loc u) (hts : t.Sorted) (hus : u.Sorted) : t = u :=
  Tree.eq_of_entryAt t u hts hus fun ks => (ht ks).symm.trans (hu ks)

lemma names_of_holds {fs : FileSystem} {loc : Location} {f : Forest}
    (h : fs.Holds loc (.directory f)) (hs : f.Sorted) :
    fs.names loc = f.names.map Subtype.val := by
  have : Std.Irrefl (α := String) (· < ·) := ⟨String.lt_irrefl⟩
  have : Std.Antisymm (α := String) (· < ·) := ⟨fun _ _ h h' => absurd h' (String.lt_asymm h)⟩
  apply (fs.names_pairwise loc).eq_of_mem_iff hs.pairwise
  intro k
  rw [fs.mem_names, h.get?_child, Option.isSome_map, Forest.mem_names]

lemma list_of_holds {fs : FileSystem} {p : Path} {loc : Location} {f : Forest}
    (hp : fs.Leads p loc) (h : fs.Holds loc (.directory f)) (hs : f.Sorted) :
    fs.list p = .ok f.names := by
  have hinj : Function.Injective (Subtype.val : Name → String) := Subtype.val_injective
  rw [list, hp]
  refine congrArg Except.ok (hinj.list_map ?_)
  rw [← names_of_holds h hs, List.map_map]
  exact List.attach_map_subtype_val (fs.names loc)

lemma exists_forest {fs : FileSystem} {loc : Location} (ns : List Name)
    (hs : (ns.map Subtype.val).Pairwise (· < ·))
    (ht : ∀ n ∈ ns, ∃ t, fs.Holds (n.1 :: loc) t ∧ t.Sorted) :
    ∃ f : Forest, f.names = ns ∧ f.Sorted ∧
      ∀ k t, f.find? k = some t → fs.Holds (k :: loc) t := by
  induction ns with
  | nil => exact ⟨.nil, rfl, trivial, fun _ _ h => by cases h⟩
  | cons n ns ih =>
    obtain ⟨hn, hns⟩ := List.pairwise_cons.mp hs
    obtain ⟨t, hh, hts⟩ := ht n List.mem_cons_self
    obtain ⟨f, rfl, hf, hfind⟩ := ih hns fun m hm => ht m (List.mem_cons_of_mem n hm)
    refine ⟨.cons n t f, rfl, ⟨fun m hm => hn m.1 (List.mem_map_of_mem hm), hts, hf⟩, ?_⟩
    intro k u hu
    by_cases hk : n.1 = k
    · simp only [Forest.find?, hk, if_true, Option.some.injEq] at hu
      exact hu ▸ hk ▸ hh
    · rw [Forest.find?, if_neg hk] at hu
      exact hfind k u hu

lemma exists_tree_of_children {fs : FileSystem} {loc : Location} {e : Entry}
    (h : fs.get? loc = some e)
    (ht : ∀ n d, fs.get? (n :: loc) = some d → ∃ t : Tree, fs.Holds (n :: loc) t ∧ t.Sorted) :
    ∃ t : Tree, fs.Holds loc t ∧ t.Sorted := by
  cases e with
  | file bytes mode => exact ⟨.file bytes mode, holds_of_leaf h (by simp [Tree.entry]), trivial⟩
  | link target => exact ⟨.link target, holds_of_leaf h (by simp [Tree.entry]), trivial⟩
  | pipe => exact ⟨.pipe, holds_of_leaf h (by simp [Tree.entry]), trivial⟩
  | directory =>
    let ns : List Name :=
      (fs.names loc).attach.map fun n => ⟨n.1, fs.isName_of_mem_names loc n.1 n.2⟩
    have hns : ns.map Subtype.val = fs.names loc := by
      rw [List.map_map]
      exact List.attach_map_subtype_val (fs.names loc)
    obtain ⟨f, hf, hs, hfind⟩ := exists_forest ns (hns ▸ fs.names_pairwise loc) fun n hn => by
      have hm : n.1 ∈ fs.names loc := hns ▸ List.mem_map_of_mem hn
      obtain ⟨d, hd⟩ := Option.isSome_iff_exists.mp ((fs.mem_names loc n.1).mp hm)
      exact ht n.1 d hd
    refine ⟨.directory f, fun ks => ?_, hs⟩
    cases ks with
    | nil => exact h
    | cons k ks =>
      rw [List.reverse_cons, List.append_assoc, Tree.entryAt]
      cases hk : f.find? k with
      | some t => exact hfind k t hk ks
      | none =>
        have hnone : fs.get? (k :: loc) = none := by
          rw [← Option.not_isSome_iff_eq_none, ← fs.mem_names, ← hns, ← hf, Forest.mem_names, hk]
          exact Bool.false_ne_true
        cases ks with
        | nil => exact hnone
        | cons m ks =>
          rw [List.reverse_cons, List.append_assoc]
          exact get?_below (by simp [hnone]) m ks

lemma exists_tree {fs : FileSystem} {loc : Location} {e : Entry} (h : fs.get? loc = some e) :
    ∃ t : Tree, fs.Holds loc t ∧ t.Sorted := by
  let depth := (fs.entries.keys.map List.length).max?.getD 0
  have hdepth (l : Location) (d : Entry) (hl : fs.get? l = some d) : l.length ≤ depth := by
    have hm : l ∈ fs.entries.keys := by
      rw [Std.ExtTreeMap.mem_keys, Std.ExtTreeMap.mem_iff_isSome_getElem?]
      exact Option.isSome_iff_exists.mpr ⟨d, hl⟩
    exact List.le_max?_getD_of_mem (List.mem_map_of_mem hm)
  -- The induction is on how many levels may still follow.
  obtain ⟨k, hk⟩ : ∃ k, depth ≤ loc.length + k := ⟨depth, Nat.le_add_left depth loc.length⟩
  induction k generalizing loc e with
  | zero =>
    apply exists_tree_of_children h
    intro n d hd
    have hlen := hdepth _ _ hd
    rw [List.length_cons] at hlen
    omega
  | succ k ih =>
    refine exists_tree_of_children h fun n d hd => ih hd ?_
    rw [List.length_cons]
    omega

lemma exists_forest_of_directory {fs : FileSystem} {loc : Location}
    (h : fs.get? loc = some .directory) :
    ∃ f : Forest, fs.Holds loc (.directory f) ∧ f.Sorted := by
  obtain ⟨t, ht, hs⟩ := exists_tree h
  obtain ⟨f, rfl⟩ := Tree.eq_directory (Option.some.inj (ht.get?_self.symm.trans h))
  exact ⟨f, ht, hs⟩

end FileSystem

end Scaffold
