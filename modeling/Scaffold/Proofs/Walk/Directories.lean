import Scaffold.Proofs.Walk.Opening

namespace Scaffold

namespace FileSystem

structure Prepares (fs fs' : FileSystem) (p : Path) : Prop where
  grows : fs.Extends fs'
  new : ∀ l, fs.get? l = none → fs'.get? l ≠ none →
    ∃ names, names <:+ p.names ∧ fs'.Leads ⟨p.anchor, names⟩ l

section

variable {fs fs' fs'' : FileSystem} {p q : Path} {l : Location}

lemma Prepares.refl (fs : FileSystem) (p : Path) : fs.Prepares fs p :=
  ⟨.refl fs, fun _ hl hl' => absurd hl hl'⟩

lemma Prepares.trans (h : fs.Prepares fs' p) (h' : fs'.Prepares fs'' p) : fs.Prepares fs'' p := by
  refine ⟨h.grows.trans h'.grows, fun l hl hl' => ?_⟩
  by_cases hm : fs'.get? l = none
  · exact h'.new l hm hl'
  · obtain ⟨names, hn, hleads⟩ := h.new l hl hm
    exact ⟨names, hn, hleads.extends h'.grows⟩

lemma Prepares.of_parent {anchor : Anchor} {n : Name} {names : List Name}
    (h : fs.Prepares fs' ⟨anchor, names⟩) : fs.Prepares fs' ⟨anchor, n :: names⟩ := by
  refine ⟨h.grows, fun l hl hl' => ?_⟩
  obtain ⟨ns, hns, hleads⟩ := h.new l hl hl'
  exact ⟨ns, hns.trans (List.suffix_cons n names), hleads⟩

end

end FileSystem

namespace FileAction

open Attempt FileSystem

section

variable {fs fs' : FileSystem} {p : Path}

lemma makeOneDirectory_cases (p : Path) (fs : FileSystem) :
    (∃ l, fs.find .entry p = .ok (.vacant l) ∧
      makeOneDirectory p fs = (.ok (), fs.set l .directory)) ∨
    (∃ l, fs.Leads p l) ∧ makeOneDirectory p fs = (.ok (), fs) ∨
    ∃ e, makeOneDirectory p fs = (.error e, fs) := by
  have hexisting (r : Refusal) (hr : r ≠ .noEntry) (hm : fs.makeDirectory p = .error r) :
      (∃ l, fs.Leads p l) ∧ makeOneDirectory p fs = (.ok (), fs) ∨
      ∃ e, makeOneDirectory p fs = (.error e, fs) := by
    rw [makeOneDirectory, hm]
    simp only [if_neg hr]
    rcases hd : fs.isDirectory p with r' | (_ | _)
    · exact .inr ⟨_, rfl⟩
    · exact .inr ⟨_, rfl⟩
    · exact .inl ⟨leads_of_isDirectory hd, rfl⟩
  rcases hf : fs.find .entry p with r | (⟨l, e⟩ | l)
  · have hm : fs.makeDirectory p = .error r := by rw [makeDirectory, hf]
    by_cases hr : r = .noEntry
    · subst hr
      exact .inr (.inr ⟨_, by rw [makeOneDirectory, hm]; rfl⟩)
    · exact .inr (hexisting r hr hm)
  · exact .inr (hexisting .occupied (by decide) (by rw [makeDirectory, hf]))
  · exact .inl ⟨l, rfl, by rw [makeOneDirectory, makeDirectory, hf]⟩

lemma makeOneDirectory_prepares (p : Path) (fs : FileSystem) :
    fs.Prepares (makeOneDirectory p fs).2 p := by
  rcases makeOneDirectory_cases p fs with ⟨l, hv, h⟩ | ⟨-, h⟩ | ⟨e, h⟩
  · rw [h]
    have hnone := get?_of_vacant hv
    have hset := get?_set_self (e := .directory) (canHold_of_vacant hv) (by simp [hnone])
    refine ⟨extends_set hnone _, fun l' hl hl' => ?_⟩
    obtain rfl : l' = l := by
      by_contra hne
      rw [get?_set fs l l' _ (canHold_of_vacant hv) (by simp [hnone]), if_neg hne] at hl'
      exact hl' hl
    exact ⟨p.names, List.suffix_rfl, leads_of_vacant hv (extends_set hnone _) hset⟩
  · rw [h]
    exact .refl fs p
  · rw [h]
    exact .refl fs p

lemma makeOneDirectory_leads (h : makeOneDirectory p fs = (.ok (), fs')) : ∃ l, fs'.Leads p l := by
  rcases makeOneDirectory_cases p fs with ⟨l, hv, h'⟩ | ⟨hl, h'⟩ | ⟨e, h'⟩
  · obtain rfl : fs.set l .directory = fs' := congrArg Prod.snd (h'.symm.trans h)
    have hnone := get?_of_vacant hv
    exact ⟨l, leads_of_vacant hv (extends_set hnone _)
      (get?_set_self (canHold_of_vacant hv) (by simp [hnone]))⟩
  · obtain rfl : fs = fs' := congrArg Prod.snd (h'.symm.trans h)
    exact hl
  · cases h'.symm.trans h

lemma makeDirectoriesAt_cons (anchor : Anchor) (n : Name) (names : List Name) (fs : FileSystem) :
    makeDirectoriesAt anchor (n :: names) fs = makeOneDirectory ⟨anchor, n :: names⟩ fs ∨
    makeDirectoriesAt anchor (n :: names) fs = (do
      makeDirectoriesAt anchor names
      makeOneDirectory ⟨anchor, n :: names⟩ : FileAction Unit) fs := by
  simp only [makeDirectoriesAt]
  split
  · exact .inr rfl
  · exact .inl rfl

lemma makeDirectoriesAt_prepares (anchor : Anchor) (names : List Name) (fs : FileSystem) :
    fs.Prepares (makeDirectoriesAt anchor names fs).2 ⟨anchor, names⟩ := by
  induction names generalizing fs with
  | nil => exact makeOneDirectory_prepares _ fs
  | cons n names ih =>
    rcases makeDirectoriesAt_cons anchor n names fs with h | h
    · rw [h]
      exact makeOneDirectory_prepares _ fs
    · have habove := ih fs
      rw [h, bind_apply]
      rcases hm : makeDirectoriesAt anchor names fs with ⟨e | u, fs'⟩
      · rw [hm] at habove
        exact habove.of_parent
      · rw [hm] at habove
        exact habove.of_parent.trans (makeOneDirectory_prepares _ fs')

lemma makeDirectories_prepares (p : Path) (fs : FileSystem) :
    fs.Prepares (makeDirectories p fs).2 p :=
  makeDirectoriesAt_prepares p.anchor p.names fs

lemma makeDirectories_leads (h : makeDirectories p fs = (.ok (), fs')) : ∃ l, fs'.Leads p l := by
  obtain ⟨anchor, names⟩ := p
  cases names with
  | nil => exact makeOneDirectory_leads h
  | cons n names =>
    rw [makeDirectories] at h
    rcases makeDirectoriesAt_cons anchor n names fs with h' | h'
    · exact makeOneDirectory_leads (h'.symm.trans h)
    · have hbind := h'.symm.trans h
      rw [bind_apply] at hbind
      rcases hm : makeDirectoriesAt anchor names fs with ⟨e | u, fs₁⟩
      · rw [hm] at hbind
        cases hbind
      · rw [hm] at hbind
        exact makeOneDirectory_leads hbind

lemma makeDirectories_of_leads {l : Location} (h : fs.Leads p l) :
    makeDirectories p fs = (.ok (), fs) := by
  obtain ⟨l', e, hentry⟩ := h.entry
  have hmake : fs.makeDirectory p = .error .occupied := by rw [makeDirectory, hentry]
  rw [makeDirectories_eq (by simp [hmake]), makeOneDirectory, hmake]
  simp only [h.isDirectory, reduceCtorEq, if_false]

lemma makeDirectories_snd_of_fails (hno : fs.makeDirectory p ≠ .error .noEntry)
    (h : Fails (makeDirectories p fs)) : (makeDirectories p fs).2 = fs := by
  rw [makeDirectories_eq hno] at h ⊢
  rcases makeOneDirectory_cases p fs with ⟨l, -, hm⟩ | ⟨-, hm⟩ | ⟨e, hm⟩
  · exact absurd (hm ▸ h) (not_fails_ok _ _)
  · rw [hm]
  · rw [hm]

end

end FileAction

namespace FileSystem

open Attempt FileAction

section

variable {fs : FileSystem} {p : Path}

lemma unchanged_of_there {l : Location} {e : Entry} (h : fs.find .entry p = .ok (.there l e))
    (hd : fs.isDirectory p ≠ .ok true) :
    Fails (makeDirectories p fs) ∧ (makeDirectories p fs).2 = fs := by
  have hfails := fails_makeDirectories_of_there h hd
  exact ⟨hfails, makeDirectories_snd_of_fails (by simp [makeDirectory, h]) hfails⟩

lemma unchanged_of_refused {r : Refusal} (h : fs.find .entry p = .error r) (hr : r ≠ .noEntry) :
    Fails (makeDirectories p fs) ∧ (makeDirectories p fs).2 = fs := by
  have hfails := fails_makeDirectories_of_refused h hr
  exact ⟨hfails, makeDirectories_snd_of_fails (by simp [makeDirectory, h, hr]) hfails⟩

lemma unchanged_of_anchor {anchor : Anchor} {r : Refusal}
    (h : fs.find .entry ⟨anchor, []⟩ = .error r) :
    Fails (makeDirectories ⟨anchor, []⟩ fs) ∧ (makeDirectories ⟨anchor, []⟩ fs).2 = fs := by
  have hfails := fails_makeOneDirectory_of_refused h
  rcases makeOneDirectory_cases ⟨anchor, []⟩ fs with ⟨l, hv, -⟩ | ⟨-, hm⟩ | ⟨e, hm⟩
  · cases h.symm.trans hv
  · exact absurd (hm ▸ hfails) (not_fails_ok _ _)
  · exact ⟨hfails, congrArg Prod.snd hm⟩

lemma unchanged_child {n : Name} (h : fs.find .entry (p.child n) = .error .noEntry)
    (hp : Fails (makeDirectories p fs) ∧ (makeDirectories p fs).2 = fs) :
    Fails (makeDirectories (p.child n) fs) ∧ (makeDirectories (p.child n) fs).2 = fs := by
  rw [makeDirectories_child h]
  exact ⟨fails_bind_left hp.1 _, (bind_snd_of_fails hp.1 _).trans hp.2⟩

lemma Absent.missing_or_unchanged (h : fs.Absent p)
    (hn : ∀ n ∈ p.names, n.1 ≠ ".." → isEntryName n.1 = true) :
    (∃ D, fs.Missing p D) ∨ Fails (makeDirectories p fs) ∧ (makeDirectories p fs).2 = fs := by
  obtain ⟨anchor, names⟩ := p
  induction names with
  | nil =>
    rcases hf : fs.find .entry ⟨anchor, []⟩ with r | (⟨l, e⟩ | l)
    · exact .inr (unchanged_of_anchor hf)
    · exact absurd hf (h.nothing l e)
    · exact .inl ⟨l, .vacant hf⟩
  | cons n names ih =>
    rcases hf : fs.find .entry ⟨anchor, n :: names⟩ with r | (⟨l, e⟩ | l)
    · by_cases hr : r = .noEntry
      swap
      · exact .inr (unchanged_of_refused hf hr)
      subst hr
      have hup : n.1 ≠ ".." := fun hup => h.noUp n names List.suffix_rfl hup hf
      by_cases hthere : ∃ l e, fs.find .entry ⟨anchor, names⟩ = .ok (.there l e)
      · obtain ⟨l, e, hl⟩ := hthere
        refine .inr (unchanged_child (p := ⟨anchor, names⟩) hf (unchanged_of_there hl fun hd => ?_))
        obtain ⟨loc, hleads⟩ := leads_of_isDirectory hd
        exact hleads.find_child_ne hup hf
      · have habove : fs.Absent ⟨anchor, names⟩ := h.parent (by simpa using hthere)
        rcases ih habove fun m hm => hn m (List.mem_cons_of_mem n hm) with ⟨D, hD⟩ | hparent
        · exact .inl ⟨n.1 :: D, .child hf (hn n List.mem_cons_self hup) hD⟩
        · exact .inr (unchanged_child (p := ⟨anchor, names⟩) hf hparent)
    · exact absurd hf (h.nothing l e)
    · exact .inl ⟨l, .vacant hf⟩

end

end FileSystem

end Scaffold
