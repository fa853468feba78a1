import Scaffold.Proofs.FileSystem.Lookups
import Scaffold.Proofs.Walk.Containing

namespace Scaffold

namespace Forest

def append : Forest → Forest → Forest
  | .nil, g => g
  | .cons n t rest, g => .cons n t (rest.append g)

lemma append_nil (f : Forest) : f.append .nil = f := by
  cases f with
  | nil => rfl
  | cons n t rest => rw [append, append_nil rest]

lemma append_assoc (f g h : Forest) : (f.append g).append h = f.append (g.append h) := by
  cases f with
  | nil => rfl
  | cons n t rest => rw [append, append, append, append_assoc rest]

lemma put_of_not_mem {f : Forest} {n : Name} (h : n ∉ f.names) (t : Tree) :
    f.put n t = f.append (.cons n t .nil) := by
  cases f with
  | nil => rfl
  | cons m u rest =>
    obtain ⟨hm, hrest⟩ := List.ne_and_not_mem_of_not_mem_cons h
    rw [put, if_neg hm.symm, append, put_of_not_mem hrest]

lemma put_append {f : Forest} {n : Name} (h : n ∉ f.names) (t : Tree) (g : Forest) :
    (f.put n t).append g = f.append (.cons n t g) := by
  rw [put_of_not_mem h, append_assoc]
  rfl

lemma find?_of_not_mem {f : Forest} {n : Name} (h : n ∉ f.names) : f.find? n.1 = none := by
  rw [← Option.not_isSome_iff_eq_none, f.find?_isSome_iff]
  rintro ⟨m, hm, he⟩
  exact h (Subtype.ext he ▸ hm)

end Forest

mutual

/-- Nothing in the tree is of a kind that is not copied, and no path on the way is too long. -/
def Tree.Fits (p : Pair) : Tree → Prop
  | .directory f => p.check = .ok () ∧ f.Fits p
  | .pipe => False
  | _ => p.check = .ok ()

def Forest.Fits (p : Pair) : Forest → Prop
  | .nil => True
  | .cons n t rest => t.Fits (p.child p.dest n) ∧ rest.Fits p

end

open Walk

lemma Pair.check_of_ne {p : Pair} (h : p.check ≠ .ok ()) : p.check = .error .failure := by
  rw [Pair.check] at h ⊢
  by_cases hfit : p.source.byteLength ≤ pathLimit ∧ p.dest.byteLength ≤ pathLimit
  · exact absurd (if_pos hfit) h
  · exact if_neg hfit

lemma Forest.Sorted.not_mem {n : Name} {t : Tree} {rest : Forest}
    (h : (Forest.cons n t rest).Sorted) : n ∉ rest.names := fun hm =>
  String.lt_irrefl n.1 (h.1 n hm)

mutual

lemma Tree.copied_fresh (t : Tree) (hs : t.Sorted) (p : Pair) :
    (t.Fits p → t.copied p none = .ok t) ∧ (¬ t.Fits p → t.copied p none = .error .failure) := by
  by_cases hdir : t.entry = .directory
  · obtain ⟨f, rfl⟩ := Tree.eq_directory hdir
    have hf := Forest.copied_fresh f hs p .nil fun n _ => List.not_mem_nil
    have hopen (hp : p.check = .ok ()) : (Tree.directory f).copied p none =
        f.copied p .nil >>= fun g => pure (.directory g) := by
      rw [Tree.copied, hp]
      rfl
    constructor
    · rintro ⟨hp, hfit⟩
      rw [hopen hp, hf.1 hfit]
      rfl
    · intro h
      by_cases hp : p.check = .ok ()
      · rw [hopen hp, hf.2 fun hfit => h ⟨hp, hfit⟩]
        rfl
      · rw [Tree.copied, Pair.check_of_ne hp]
        rfl
  · by_cases hpipe : t = .pipe
    · subst hpipe
      exact ⟨False.elim, fun _ => rfl⟩
    have hleaf : t.entry ≠ .pipe := fun he => by cases t <;> simp_all [Tree.entry]
    have hfits : t.Fits p ↔ p.check = .ok () := by
      cases t <;> simp_all [Tree.Fits, Tree.entry]
    rw [copied_of_leaf hdir hleaf, hfits]
    constructor
    · intro hp
      rw [hp]
      rfl
    · intro hp
      rw [Pair.check_of_ne hp]
      rfl

lemma Forest.copied_fresh (f : Forest) (hs : f.Sorted) (p : Pair) (acc : Forest)
    (hd : ∀ n ∈ f.names, n ∉ acc.names) :
    (f.Fits p → f.copied p acc = .ok (acc.append f)) ∧
      (¬ f.Fits p → f.copied p acc = .error .failure) := by
  cases f with
  | nil => exact ⟨fun _ => by rw [acc.append_nil]; rfl, fun h => absurd trivial h⟩
  | cons n t rest =>
    have hn : n ∉ acc.names := hd n List.mem_cons_self
    have ht := Tree.copied_fresh t hs.2.1 (p.child p.dest n)
    have hd' : ∀ m ∈ rest.names, m ∉ (acc.put n t).names := by
      intro m hm hput
      rcases Forest.mem_names_put hput with rfl | hmem
      · exact hs.not_mem hm
      · exact hd m (List.mem_cons_of_mem n hm) hmem
    have hrest := Forest.copied_fresh rest hs.2.2 p (acc.put n t) hd'
    have hfirst : (Forest.cons n t rest).copied p acc =
        t.copied (p.child p.dest n) none >>= fun u => rest.copied p (acc.put n u) := by
      rw [Forest.copied, Forest.find?_of_not_mem hn]
    rw [Forest.put_append hn] at hrest
    constructor
    · rintro ⟨hfit, hfit'⟩
      rw [hfirst, ht.1 hfit]
      exact hrest.1 hfit'
    · intro h
      by_cases hfit : t.Fits (p.child p.dest n)
      · rw [hfirst, ht.1 hfit]
        exact hrest.2 fun hfit' => h ⟨hfit, hfit'⟩
      · rw [hfirst, ht.2 hfit]
        rfl

end

namespace Walk

open Attempt FileAction FileSystem

section

variable {fs : FileSystem} {source dest : Path} {S D : Location} {f : Forest}

lemma copyVisit_directory (hsource : fs.find .entry source = .ok (.there S .directory)) :
    copyVisit ⟨source, dest⟩ fs = mapFailure (blameCopy ⟨source, dest⟩)
      (openDirectory source dest) fs := by
  have hentry : fs.entryAt source = .ok .directory := by rw [FileSystem.entryAt, hsource]
  rw [copyVisit_eq (p := ⟨source, dest⟩) hentry]
  rfl

lemma leads_of_entry (hsource : fs.find .entry source = .ok (.there S .directory)) :
    fs.Leads source S :=
  find_sees (.refl fs) (.inr ⟨rfl, by simp⟩) hsource

lemma fails_copyTree (hsource : fs.find .entry source = .ok (.there S .directory))
    (h : Fails (makeDirectories dest fs)) :
    Fails (copyTree source dest fs) ∧
      (copyTree source dest fs).2 = (makeDirectories dest fs).2 := by
  have hfails : Fails (openDirectory source dest fs) := fails_bind_left h _
  have hvisit : Fails (copyVisit ⟨source, dest⟩ fs) := by
    rw [copyVisit_directory hsource]
    exact fails_mapFailure hfails _
  refine ⟨fails_run hvisit, ?_⟩
  rw [copyTree, run_of_fails hvisit, copyVisit_directory hsource, mapFailure_snd, openDirectory,
    bind_snd_of_fails h]

lemma copyTree_fresh (hdest : fs.Missing dest D)
    (hsource : fs.find .entry source = .ok (.there S .directory))
    (hf : fs.Holds S (.directory f)) (hs : f.Sorted) (hout : ¬ S <:+ D) :
    (f.Fits ⟨source, dest⟩ →
      copyTree source dest fs = (.ok (), f.writeTo (fs.openTo D) D) ∧
        (f.writeTo (fs.openTo D) D).Holds D (.directory f)) ∧
    (¬ f.Fits ⟨source, dest⟩ → Fails (copyTree source dest fs)) ∧
    (fs.openTo D).ChangesBelow (copyTree source dest fs).2 D := by
  have hroot := leads_of_entry hsource
  obtain ⟨hmake, ho, hleads⟩ := hdest.opened
  have w := ho.window hleads
  have s : Source (fs.openTo D) D source S f := ho.source hroot hf hs hout
  have hopen : openDirectory source dest fs = (.ok (dest, f.names), fs.openTo D) := by
    rw [openDirectory, bind_of_ok hmake, bind_of_ok (ask_of_ok s.list)]
    rfl
  have hentry : fs.entryAt source = .ok .directory := by rw [FileSystem.entryAt, hsource]
  have hrun : copyTree source dest fs =
      run copyVisit (f.names.map (Pair.child ⟨source, dest⟩ dest) ++ []) (fs.openTo D) := by
    rw [List.append_nil, copyTree_of_opened hentry hopen]
  have hnil : Forest.nil.Proper := trivial
  have hperforms := f.copied_performs w s hnil hs fun _ _ h => h
  have hcontained := f.copied_contained w s hnil hs fun _ _ h => h
  obtain ⟨hwhole, hpart⟩ := f.copied_fresh hs ⟨source, dest⟩ .nil fun _ _ => List.not_mem_nil
  by_cases hfit : f.Fits ⟨source, dest⟩
  · rw [hwhole hfit] at hperforms
    obtain ⟨hproper, hrest⟩ := hperforms
    have hdone : copyTree source dest fs = (.ok (), f.writeTo (fs.openTo D) D) :=
      hrun.trans ((hrest []).trans (run_nil _ _))
    refine ⟨fun _ => ⟨hdone, w.holds f hproper⟩, fun h => absurd hfit h, ?_⟩
    rw [hdone]
    exact w.changesBelow hnil hproper
  · rw [hpart hfit] at hperforms hcontained
    refine ⟨fun h => absurd h hfit, fun _ => ?_, ?_⟩
    · rw [hrun]
      exact hperforms []
    · rw [hrun]
      exact hcontained []

lemma copyTree_adds (hdest : fs.Missing dest D)
    (h : (fs.openTo D).ChangesBelow (copyTree source dest fs).2 D) :
    fs.Extends (copyTree source dest fs).2 ∧ (copyTree source dest fs).2.Leads dest D ∧
    ∀ l, ¬ D <:+ l →
      (copyTree source dest fs).2.get? l = if l <:+ D then some .directory else fs.get? l := by
  obtain ⟨-, ho, hleads⟩ := hdest.opened
  have hD : (copyTree source dest fs).2.get? D = some .directory :=
    (h.get? D fun hne => hne.2 rfl).trans ho.holds.get?_self
  have hgrows := (ho.window hleads).extends h.outside hD
  refine ⟨ho.grows.trans hgrows, hleads.extends hgrows, fun l hl => ?_⟩
  rw [h.outside.get? l hl, ho.get?]

end

end Walk

end Scaffold
