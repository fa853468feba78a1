import Mathlib.Tactic.Common
import Scaffold.FileSystem.Operations

namespace Scaffold

mutual

inductive Tree
  | file (bytes : ByteArray) (mode : Nat)
  | link (target : String)
  | pipe
  | directory (children : Forest)

inductive Forest
  | nil
  | cons (name : Name) (tree : Tree) (rest : Forest)

end

deriving instance DecidableEq for Tree, Forest

namespace Forest

def names : Forest → List Name
  | .nil => []
  | .cons n _ rest => n :: rest.names

def find? (k : String) : Forest → Option Tree
  | .nil => none
  | .cons n t rest => if n.1 = k then some t else rest.find? k

def put (n : Name) (t : Tree) : Forest → Forest
  | .nil => .cons n t .nil
  | .cons m u rest => if m = n then .cons n t rest else .cons m u (rest.put n t)

lemma find?_put (f : Forest) (n : Name) (t : Tree) (k : String) :
    (f.put n t).find? k = if n.1 = k then some t else f.find? k := by
  cases f with
  | nil => rfl
  | cons m u rest =>
    by_cases hm : m = n
    · subst hm
      by_cases hk : m.1 = k <;> simp [put, find?, hk]
    · have ih := find?_put rest n t k
      by_cases hk : m.1 = k
      · have hn : ¬ n.1 = k := fun hn => hm (Subtype.ext (hk.trans hn.symm))
        simp [put, find?, hm, hk, hn]
      · simp [put, find?, hm, hk, ih]

lemma put_of_find? {f : Forest} {n : Name} {t : Tree} (h : f.find? n.1 = some t) :
    f.put n t = f := by
  cases f with
  | nil => cases h
  | cons m u rest =>
    by_cases hm : m = n
    · subst hm
      rw [find?, if_pos rfl] at h
      rw [put, if_pos rfl, Option.some.inj h]
    · have hk : ¬ m.1 = n.1 := fun hk => hm (Subtype.ext hk)
      rw [find?, if_neg hk] at h
      rw [put, if_neg hm, put_of_find? h]

lemma mem_names_put {f : Forest} {n : Name} {t : Tree} {k : Name} (h : k ∈ (f.put n t).names) :
    k = n ∨ k ∈ f.names := by
  cases f with
  | nil => simpa [put, names] using h
  | cons m u rest =>
    by_cases hm : m = n
    · simp only [put, hm, if_true, names, List.mem_cons] at h ⊢
      tauto
    · have ih := @mem_names_put rest n t k
      simp only [put, hm, if_false, names, List.mem_cons] at h ⊢
      tauto

lemma find?_isSome_iff (f : Forest) (k : String) : (f.find? k).isSome ↔ ∃ n ∈ f.names, n.1 = k := by
  cases f with
  | nil => simp [find?, names]
  | cons m u rest =>
    have ih := find?_isSome_iff rest k
    by_cases hm : m.1 = k <;> simp [find?, names, hm, ih]

end Forest

namespace Tree

def entry : Tree → Entry
  | .file bytes mode => .file bytes mode
  | .link target => .link target
  | .pipe => .pipe
  | .directory _ => .directory

def entryAt : Tree → List String → Option Entry
  | t, [] => some t.entry
  | .directory f, k :: ks => (f.find? k).bind fun t => t.entryAt ks
  | _, _ :: _ => none

lemma eq_directory {t : Tree} (h : t.entry = .directory) : ∃ f, t = .directory f := by
  cases t with
  | directory f => exact ⟨f, rfl⟩
  | file | link | pipe => cases h

lemma entryAt_nil (t : Tree) : t.entryAt [] = some t.entry := by
  cases t <;> rfl

lemma entryAt_of_leaf {t : Tree} (h : t.entry ≠ .directory) (k : String) (ks : List String) :
    t.entryAt (k :: ks) = none := by
  cases t with
  | directory f => exact absurd rfl h
  | file | link | pipe => rfl

end Tree

mutual

/-- Trees that a walk may make: no pipes, and different names for the children of each directory,
such as entries may have. -/
def Tree.Proper : Tree → Prop
  | .directory f => f.Proper
  | .pipe => False
  | _ => True

def Forest.Proper : Forest → Prop
  | .nil => True
  | .cons n t rest => isEntryName n.1 = true ∧ n ∉ rest.names ∧ t.Proper ∧ rest.Proper

end

lemma Tree.proper_of_leaf {t : Tree} (h : t.entry ≠ .directory) (hp : t.entry ≠ .pipe) :
    t.Proper := by
  cases t with
  | directory f => exact absurd rfl h
  | pipe => exact absurd rfl hp
  | file | link => trivial

lemma Tree.Proper.entry_ne {t : Tree} (h : t.Proper) : t.entry ≠ .pipe := by
  intro he
  cases t with
  | pipe => exact h
  | file | link | directory => cases he

lemma Forest.Proper.put {f : Forest} (h : f.Proper) {n : Name} (hn : isEntryName n.1 = true)
    {t : Tree} (ht : t.Proper) : (f.put n t).Proper := by
  cases f with
  | nil => exact ⟨hn, List.not_mem_nil, ht, trivial⟩
  | cons m u rest =>
    obtain ⟨hm, hr, hu, hrest⟩ := h
    by_cases he : m = n
    · subst he
      simpa only [Forest.put, if_true] using ⟨hm, hr, ht, hrest⟩
    · rw [Forest.put, if_neg he]
      refine ⟨hm, fun hp => ?_, hu, Forest.Proper.put hrest hn ht⟩
      rcases Forest.mem_names_put hp with rfl | hp
      · exact he rfl
      · exact hr hp

lemma Forest.Proper.find? {f : Forest} (h : f.Proper) {k : String} {t : Tree}
    (ht : f.find? k = some t) : t.Proper ∧ isEntryName k = true := by
  cases f with
  | nil => cases ht
  | cons m u rest =>
    obtain ⟨hm, -, hu, hrest⟩ := h
    by_cases hk : m.1 = k
    · simp only [Forest.find?, hk, if_true, Option.some.injEq] at ht
      exact ⟨ht ▸ hu, hk ▸ hm⟩
    · simp only [Forest.find?, hk, if_false] at ht
      exact Forest.Proper.find? hrest ht

namespace FileSystem

lemma eq_of_get? {fs fs' : FileSystem} (hw : fs.workDir = fs'.workDir)
    (h : ∀ l, fs.get? l = fs'.get? l) : fs = fs' := by
  obtain ⟨entries, workDir, root, closed⟩ := fs
  obtain ⟨entries', workDir', root', closed'⟩ := fs'
  obtain rfl : entries = entries' := Std.ExtTreeMap.ext_getElem? fun l => h l
  obtain rfl : workDir = workDir' := hw
  rfl

lemma get?_parent {fs : FileSystem} {n : String} {loc : Location} {e : Entry}
    (h : fs.get? (n :: loc) = some e) : isEntryName n = true ∧ fs.get? loc = some .directory :=
  fs.closed n loc (by
    rw [get?] at h
    exact Std.ExtTreeMap.mem_iff_isSome_getElem?.mpr (by rw [h]; rfl))

lemma get?_below {fs : FileSystem} {loc : Location} (h : fs.get? loc ≠ some .directory)
    (k : String) (ks : List String) : fs.get? (ks.reverse ++ k :: loc) = none := by
  have hk : fs.get? (k :: loc) = none := by
    by_contra hk
    obtain ⟨e, he⟩ := Option.ne_none_iff_exists'.mp hk
    exact h (get?_parent he).2
  induction ks generalizing k loc with
  | nil => exact hk
  | cons m ks ih =>
    have hm : fs.get? (m :: k :: loc) = none := by
      by_contra hm
      obtain ⟨e, he⟩ := Option.ne_none_iff_exists'.mp hm
      simp [(get?_parent he).2] at hk
    simpa using ih (by simp [hk]) m hm

lemma get?_of_below {fs : FileSystem} {loc : Location} {e : Entry} {ks : List String}
    (h : fs.get? (ks ++ loc) = some e) (hks : ks ≠ []) : fs.get? loc = some .directory := by
  rcases List.eq_nil_or_concat ks with rfl | ⟨ks, k, rfl⟩
  · exact absurd rfl hks
  · by_contra hd
    rw [List.concat_append, ← List.reverse_reverse ks, get?_below hd] at h
    cases h

def Holds (fs : FileSystem) (loc : Location) (t : Tree) : Prop :=
  ∀ ks : List String, fs.get? (ks.reverse ++ loc) = t.entryAt ks

structure AgreesOutside (fs fs' : FileSystem) (loc : Location) : Prop where
  workDir : fs'.workDir = fs.workDir
  get? : ∀ l, ¬ loc <:+ l → fs'.get? l = fs.get? l

section

variable {fs fs' fs'' : FileSystem} {loc : Location} {n : String} {f : Forest} {t : Tree}

lemma AgreesOutside.refl (fs : FileSystem) (loc : Location) : fs.AgreesOutside fs loc :=
  ⟨rfl, fun _ _ => rfl⟩

lemma AgreesOutside.trans (h : fs.AgreesOutside fs' loc) (h' : fs'.AgreesOutside fs'' loc) :
    fs.AgreesOutside fs'' loc :=
  ⟨h'.workDir.trans h.workDir, fun l hl => (h'.get? l hl).trans (h.get? l hl)⟩

lemma AgreesOutside.symm (h : fs.AgreesOutside fs' loc) : fs'.AgreesOutside fs loc :=
  ⟨h.workDir.symm, fun l hl => (h.get? l hl).symm⟩

lemma AgreesOutside.widen {loc' : Location} (h : fs.AgreesOutside fs' loc) (hl : loc' <:+ loc) :
    fs.AgreesOutside fs' loc' :=
  ⟨h.workDir, fun l hn => h.get? l fun hs => hn (hl.trans hs)⟩

lemma not_suffix_parent (n : String) (loc : Location) : ¬ n :: loc <:+ loc := fun h => by
  have hlen := h.length_le
  rw [List.length_cons] at hlen
  omega

lemma not_suffix_sibling {k : String} (hk : n ≠ k) (ks : List String) :
    ¬ n :: loc <:+ ks.reverse ++ k :: loc := by
  rintro ⟨a, ha⟩
  have hc : a ++ [n] ++ loc = ks.reverse ++ [k] ++ loc := by simpa using ha
  have hs := List.append_inj_right' (List.append_cancel_right hc) rfl
  exact hk (List.singleton_inj.mp hs)

lemma not_suffix_of_apart {S D : Location} (hS : ¬ S <:+ D) (hD : ¬ D <:+ S) (ks : List String) :
    ¬ D <:+ ks ++ S := by
  intro hs
  rcases List.suffix_or_suffix_of_suffix hs (List.suffix_append ks S) with hs | hs
  · exact hD hs
  · exact hS hs

lemma agrees_set (fs : FileSystem) (loc : Location) (e : Entry) :
    fs.AgreesOutside (fs.set loc e) loc := by
  by_cases h : fs.canHold loc = true ∧ fs.get? loc ≠ some .directory
  · refine ⟨by rw [set, dif_pos h], fun l hl => ?_⟩
    rw [get?_set _ _ _ _ h.1 h.2, if_neg]
    rintro rfl
    exact hl List.suffix_rfl
  · rw [set, dif_neg h]
    exact .refl fs loc

lemma agrees_erase (fs : FileSystem) (loc : Location) : fs.AgreesOutside (fs.erase loc) loc := by
  by_cases h : fs.get? loc ≠ some .directory
  · refine ⟨by rw [erase, dif_pos h], fun l hl => ?_⟩
    rw [get?_erase _ _ _ h, if_neg]
    rintro rfl
    exact hl List.suffix_rfl
  · rw [erase, dif_neg h]
    exact .refl fs loc

lemma Holds.get?_self (h : fs.Holds loc t) : fs.get? loc = some t.entry :=
  (h []).trans t.entryAt_nil

lemma Holds.child (h : fs.Holds loc (.directory f)) (ht : f.find? n = some t) :
    fs.Holds (n :: loc) t := by
  intro ks
  have hk := h (n :: ks)
  rw [Tree.entryAt, ht] at hk
  simpa using hk

lemma Holds.get?_child (h : fs.Holds loc (.directory f)) (k : String) :
    fs.get? (k :: loc) = (f.find? k).map Tree.entry := by
  have hk := h [k]
  rw [Tree.entryAt] at hk
  cases hf : f.find? k with
  | none => simpa [hf] using hk
  | some t => simpa [hf, Tree.entryAt_nil] using hk

lemma holds_of_leaf (h : fs.get? loc = some t.entry) (ht : t.entry ≠ .directory) :
    fs.Holds loc t := by
  intro ks
  cases ks with
  | nil => rw [Tree.entryAt_nil, ← h]; rfl
  | cons k ks =>
    rw [Tree.entryAt_of_leaf ht, List.reverse_cons, List.append_assoc]
    exact get?_below (fun he => ht (Option.some.inj (h.symm.trans he))) k ks

lemma Holds.agrees {loc' : Location} (h : fs.Holds loc t) (ha : fs.AgreesOutside fs' loc')
    (hl : ¬ loc' <:+ loc) (hl' : ¬ loc <:+ loc') : fs'.Holds loc t := by
  intro ks
  rw [ha.get? _ fun hs => ?_, h ks]
  rcases List.suffix_or_suffix_of_suffix hs (List.suffix_append ks.reverse loc) with hs | hs
  · exact hl hs
  · exact hl' hs

lemma Holds.eq (h : fs.Holds loc t) (h' : fs'.Holds loc t) (ha : fs.AgreesOutside fs' loc) :
    fs = fs' := by
  apply eq_of_get? ha.workDir.symm
  intro l
  by_cases hl : loc <:+ l
  · obtain ⟨ks, rfl⟩ := hl
    rw [← List.reverse_reverse ks, h, h']
  · exact (ha.get? l hl).symm

lemma eq_of_leaf {e : Entry} (h : fs.get? loc = some e) (h' : fs'.get? loc = some e)
    (he : e ≠ .directory) (ha : fs.AgreesOutside fs' loc) : fs = fs' := by
  obtain ⟨t, rfl⟩ : ∃ t : Tree, t.entry = e := by
    cases e with
    | file bytes mode => exact ⟨.file bytes mode, rfl⟩
    | link target => exact ⟨.link target, rfl⟩
    | pipe => exact ⟨.pipe, rfl⟩
    | directory => exact absurd rfl he
  exact (holds_of_leaf h he).eq (holds_of_leaf h' he) ha

lemma Holds.eq_of_nil {l : Location} {e : Entry} (h : fs.Holds loc (.directory .nil))
    (hs : loc <:+ l) (hl : fs.get? l = some e) : l = loc := by
  obtain ⟨ks, rfl⟩ := hs
  have hk := h ks.reverse
  rw [List.reverse_reverse, hl] at hk
  cases hr : ks.reverse with
  | nil =>
    obtain rfl : ks = [] := List.reverse_eq_nil_iff.mp hr
    rfl
  | cons k ks' =>
    rw [hr] at hk
    cases hk

lemma Holds.put {n : Name} (h : fs.Holds loc (.directory f))
    (ha : fs.AgreesOutside fs' (n.1 :: loc)) (ht : fs'.Holds (n.1 :: loc) t) :
    fs'.Holds loc (.directory (f.put n t)) := by
  intro ks
  cases ks with
  | nil => exact (ha.get? loc (not_suffix_parent n.1 loc)).trans (h [])
  | cons k ks =>
    rw [Tree.entryAt, Forest.find?_put]
    by_cases hk : n.1 = k
    · subst hk
      simpa using ht ks
    · rw [if_neg hk, List.reverse_cons, List.append_assoc]
      have hf := h (k :: ks)
      rw [Tree.entryAt, List.reverse_cons, List.append_assoc] at hf
      rw [← hf]
      exact ha.get? _ (not_suffix_sibling hk ks)

end

end FileSystem

mutual

def Tree.writeTo (fs : FileSystem) (loc : Location) : Tree → FileSystem
  | .directory f => f.writeTo (fs.set loc .directory) loc
  | .file bytes mode => fs.set loc (.file bytes mode)
  | .link target => fs.set loc (.link target)
  | .pipe => fs.set loc .pipe

def Forest.writeTo (fs : FileSystem) (loc : Location) : Forest → FileSystem
  | .nil => fs
  | .cons n t rest => rest.writeTo (t.writeTo fs (n.1 :: loc)) loc

end

lemma Tree.writeTo_leaf {t : Tree} (h : t.entry ≠ .directory) (fs : FileSystem) (loc : Location) :
    t.writeTo fs loc = fs.set loc t.entry := by
  cases t with
  | directory f => exact absurd rfl h
  | file | link | pipe => rfl

namespace FileSystem

lemma canHold_iff (fs : FileSystem) (n : String) (loc : Location) :
    fs.canHold (n :: loc) = true ↔ isEntryName n = true ∧ fs.get? loc = some .directory := by
  simp [canHold]

lemma get?_set_self {fs : FileSystem} {loc : Location} {e : Entry} (hc : fs.canHold loc = true)
    (hd : fs.get? loc ≠ some .directory) : (fs.set loc e).get? loc = some e := by
  rw [get?_set fs loc loc e hc hd, if_pos rfl]

end FileSystem

open FileSystem

mutual

lemma Tree.holds_writeTo (t : Tree) (ht : t.Proper) {fs : FileSystem} {loc : Location}
    (hc : fs.canHold loc = true) (hv : fs.get? loc = none) :
    (t.writeTo fs loc).Holds loc t ∧ fs.AgreesOutside (t.writeTo fs loc) loc := by
  by_cases hl : t.entry = .directory
  · obtain ⟨f, rfl⟩ := Tree.eq_directory hl
    have hset : (fs.set loc .directory).get? loc = some .directory :=
      get?_set_self hc (by simp [hv])
    have hsub (k : String) (ks : List String) :
        (fs.set loc .directory).get? (ks.reverse ++ k :: loc) = none := by
      rw [get?_set _ _ _ _ hc (by simp [hv]), if_neg]
      · exact get?_below (by simp [hv]) k ks
      · intro he
        have hlen := congrArg List.length he
        simp at hlen
        omega
    obtain ⟨hd, hw, ha⟩ := Forest.get?_writeTo f ht hset fun n _ => hsub n.1 []
    refine ⟨fun ks => ?_, (agrees_set fs loc .directory).trans ha⟩
    cases ks with
    | nil => exact hd
    | cons k ks =>
      have hk := hw k ks
      rw [hsub] at hk
      rw [Tree.entryAt, List.reverse_cons, List.append_assoc]
      apply Eq.trans hk
      cases f.find? k <;> rfl
  · rw [Tree.writeTo_leaf hl]
    exact ⟨holds_of_leaf (get?_set_self hc (by simp [hv])) hl, agrees_set fs loc t.entry⟩

lemma Forest.get?_writeTo (f : Forest) (hf : f.Proper) {fs : FileSystem} {loc : Location}
    (hd : fs.get? loc = some .directory) (hv : ∀ n ∈ f.names, fs.get? (n.1 :: loc) = none) :
    (f.writeTo fs loc).get? loc = some .directory ∧
    (∀ k ks, (f.writeTo fs loc).get? (ks.reverse ++ k :: loc) =
      match f.find? k with
      | some t => t.entryAt ks
      | none => fs.get? (ks.reverse ++ k :: loc)) ∧
    fs.AgreesOutside (f.writeTo fs loc) loc := by
  cases f with
  | nil => exact ⟨hd, fun _ _ => rfl, .refl fs loc⟩
  | cons n t rest =>
    obtain ⟨hn, hr, ht, hrest⟩ := hf
    obtain ⟨hw, ha⟩ := Tree.holds_writeTo t ht
      ((canHold_iff fs n.1 loc).mpr ⟨hn, hd⟩) (hv n List.mem_cons_self)
    have hd' := (ha.get? loc (not_suffix_parent n.1 loc)).trans hd
    have hv' : ∀ m ∈ rest.names, (t.writeTo fs (n.1 :: loc)).get? (m.1 :: loc) = none := by
      intro m hm
      have hne : n.1 ≠ m.1 := fun he => hr (Subtype.ext he ▸ hm)
      exact (ha.get? _ (not_suffix_sibling hne [])).trans (hv m (List.mem_cons_of_mem n hm))
    obtain ⟨hd'', hw', ha'⟩ := Forest.get?_writeTo rest hrest hd' hv'
    refine ⟨hd'', fun k ks => (hw' k ks).trans ?_,
      (ha.widen (List.suffix_cons n.1 loc)).trans ha'⟩
    by_cases hk : n.1 = k
    · subst hk
      have hnone : rest.find? n.1 = none := by
        by_contra hsome
        obtain ⟨m, hm, he⟩ :=
          (rest.find?_isSome_iff n.1).mp (Option.isSome_iff_ne_none.mpr hsome)
        exact hr (Subtype.ext he ▸ hm)
      simpa [Forest.find?, hnone] using hw ks
    · rw [Forest.find?, if_neg hk]
      cases rest.find? k with
      | some u => rfl
      | none => exact ha.get? _ (not_suffix_sibling hk ks)

end

lemma Forest.holds_writeTo {f : Forest} (hf : f.Proper) {fs : FileSystem} {loc : Location}
    (h : fs.Holds loc (.directory .nil)) :
    (f.writeTo fs loc).Holds loc (.directory f) ∧ fs.AgreesOutside (f.writeTo fs loc) loc := by
  obtain ⟨hd, hw, ha⟩ := f.get?_writeTo hf h.get?_self fun n _ => h.get?_child n.1
  refine ⟨fun ks => ?_, ha⟩
  cases ks with
  | nil => exact hd
  | cons k ks =>
    have hk := hw k ks
    have hn := h (k :: ks)
    rw [Tree.entryAt, List.reverse_cons, List.append_assoc] at hn ⊢
    apply hk.trans
    cases f.find? k with
    | some t => rfl
    | none => exact hn

end Scaffold
