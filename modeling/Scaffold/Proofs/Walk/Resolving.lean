import Scaffold.Proofs.Walk.Clearing
import Scaffold.Proofs.Walk.Directories

namespace Scaffold

namespace FileSystem

open Attempt FileAction

inductive Resolves (fs : FileSystem) : Path → Location → Prop
  | there {p : Path} {l : Location} {e : Entry} (h : fs.find .target p = .ok (.there l e)) :
      Resolves fs p l
  | vacant {p : Path} {l : Location} (h : fs.find .entry p = .ok (.vacant l)) : Resolves fs p l
  | child {p : Path} {l : Location} {n : Name} (h : fs.find .entry (p.child n) = .error .noEntry)
      (hup : n.1 ≠ "..") (hp : Resolves fs p l) : Resolves fs (p.child n) (n.1 :: l)

structure Paves (fs fs' : FileSystem) (l : Location) : Prop where
  grows : fs.Extends fs'
  get? : ∀ k, fs'.get? k = fs.get? k ∨ k <:+ l ∧ fs'.get? k = some .directory

section

variable {fs fs' fs'' : FileSystem} {p : Path} {l k : Location} {n : Name} {e : Entry}

lemma Paves.refl (fs : FileSystem) (l : Location) : fs.Paves fs l :=
  ⟨.refl fs, fun _ => .inl rfl⟩

lemma Paves.trans (h : fs.Paves fs' l) (h' : fs'.Paves fs'' l) : fs.Paves fs'' l := by
  refine ⟨h.grows.trans h'.grows, fun k => ?_⟩
  rcases h'.get? k with hsame | hnew
  · rw [hsame]
    exact h.get? k
  · exact .inr hnew

lemma Paves.deepen (h : fs.Paves fs' l) (n : String) : fs.Paves fs' (n :: l) :=
  ⟨h.grows, fun k => (h.get? k).imp id fun hk => ⟨hk.1.trans (List.suffix_cons n l), hk.2⟩⟩

lemma paves_set (hv : fs.find .entry p = .ok (.vacant l)) : fs.Paves (fs.set l .directory) l := by
  have hnone := get?_of_vacant hv
  refine ⟨extends_set hnone _, fun k => ?_⟩
  rw [get?_set fs l k _ (canHold_of_vacant hv) (by simp [hnone])]
  by_cases hk : k = l
  · exact .inr ⟨hk ▸ List.suffix_rfl, if_pos hk⟩
  · exact .inl (if_neg hk)

lemma makeOneDirectory_paves (hspot : ∀ k, fs.find .entry p = .ok (.vacant k) → k = l)
    (hleads : ∀ k, fs.Leads p k → k = l) :
    fs.Paves (makeOneDirectory p fs).2 l ∧
      ∀ fs', makeOneDirectory p fs = (.ok (), fs') → fs'.Leads p l := by
  rcases makeOneDirectory_cases p fs with ⟨k, hv, hm⟩ | ⟨⟨k, hk⟩, hm⟩ | ⟨e, hm⟩
  · obtain rfl := hspot k hv
    rw [hm]
    refine ⟨paves_set hv, fun fs' h => ?_⟩
    cases h
    have hnone := get?_of_vacant hv
    exact leads_of_vacant hv (extends_set hnone _)
      (get?_set_self (canHold_of_vacant hv) (by simp [hnone]))
  · obtain rfl := hleads k hk
    rw [hm]
    refine ⟨.refl fs k, fun fs' h => ?_⟩
    cases h
    exact hk
  · rw [hm]
    exact ⟨.refl fs l, fun fs' h => by cases h⟩

lemma find_target_ne (h : ∀ k d, fs.find .entry p ≠ .ok (.there k d)) :
    fs.find .target p ≠ .ok (.there l e) := by
  intro hl
  have ht : fs.targetAt p = .ok e := by rw [targetAt, hl]
  obtain ⟨k, d, hk⟩ := entry_of_targetAt ht
  exact h k d hk

lemma Resolves.there_or_none (h : fs.Resolves p l) :
    (∃ e, fs.find .target p = .ok (.there l e)) ∨ fs.get? l = none := by
  induction h with
  | there h => exact .inl ⟨_, h⟩
  | vacant h => exact .inr (get?_of_vacant h)
  | child h hup hp ih =>
    right
    rcases ih with ⟨e, he⟩ | hnone
    · refine get?_below (fun hd => ?_) _ []
      obtain rfl := Option.some.inj ((get?_of_there he).symm.trans hd)
      exact Leads.find_child_ne he hup h
    · exact get?_below (by simp [hnone]) _ []

lemma Resolves.eq_of_leads (h : fs.Resolves p l) (hp : fs.Leads p k) : l = k := by
  obtain ⟨m, d, hm⟩ := hp.entry
  cases h with
  | there h =>
    cases h.symm.trans hp
    rfl
  | vacant h => cases h.symm.trans hm
  | child h => cases h.symm.trans hm

lemma Resolves.none_of_refused {r : Refusal} (h : fs.Resolves p l)
    (hr : fs.find .entry p = .error r) : fs.get? l = none := by
  rcases h.there_or_none with ⟨e, he⟩ | hnone
  · exact absurd he (find_target_ne (by simp [hr]))
  · exact hnone

lemma Resolves.makeDirectories_paves (h : fs.Resolves p l) :
    fs.Paves (makeDirectories p fs).2 l ∧
      ∀ fs', makeDirectories p fs = (.ok (), fs') → fs'.Leads p l := by
  induction h with
  | @there p l e h =>
    have ht : fs.targetAt p = .ok e := by rw [targetAt, h]
    obtain ⟨k, d, hentry⟩ := entry_of_targetAt ht
    rw [makeDirectories_eq (by simp [makeDirectory, hentry])]
    refine makeOneDirectory_paves (fun k hk => ?_) fun k hk => ?_
    · cases hentry.symm.trans hk
    · cases h.symm.trans hk
      rfl
  | @vacant p l h =>
    rw [makeDirectories_eq (by simp [makeDirectory, h])]
    refine makeOneDirectory_paves (fun k hk => ?_) fun k hk => ?_
    · cases h.symm.trans hk
      rfl
    · obtain ⟨k, e, hentry⟩ := hk.entry
      cases h.symm.trans hentry
  | @child p l n h hup hp ih =>
    rw [makeDirectories_child h, bind_apply]
    rcases hm : makeDirectories p fs with ⟨e | u, fs₁⟩
    · rw [hm] at ih
      exact ⟨ih.1.deepen n.1, fun fs' hok => by cases hok⟩
    · rw [hm] at ih
      obtain ⟨hpaves, hleads⟩ := ih
      have hp₁ := hleads fs₁ rfl
      have hnone : fs₁.get? (n.1 :: l) = none := by
        rcases hpaves.get? (n.1 :: l) with hsame | ⟨hs, -⟩
        · rw [hsame]
          exact (Resolves.child h hup hp).none_of_refused h
        · exact absurd hs (not_suffix_parent n.1 l)
      have hnot (k : Location) : ¬ fs₁.Leads (p.child n) k := by
        intro hk
        obtain ⟨k', d, hd⟩ := hk.entry
        cases hp₁.child_vacant hup hnone hd
      have hone := makeOneDirectory_paves
        (fun k hk => Spot.vacant.inj (hp₁.child_vacant hup hnone hk))
        fun k hk => absurd hk (hnot k)
      exact ⟨(hpaves.deepen n.1).trans hone.1, hone.2⟩

lemma resolves_or_unchanged_of_ne (hf : fs.find .entry p ≠ .error .noEntry) :
    (∃ l, fs.Resolves p l) ∨ Fails (makeDirectories p fs) ∧ (makeDirectories p fs).2 = fs := by
  rcases hs : fs.find .entry p with r | (⟨l, e⟩ | l)
  · exact .inr (unchanged_of_refused hs fun hr => hf (hr ▸ hs))
  · by_cases hd : fs.isDirectory p = .ok true
    · obtain ⟨k, hk⟩ := leads_of_isDirectory hd
      exact .inl ⟨k, .there hk⟩
    · exact .inr (unchanged_of_there hs hd)
  · exact .inl ⟨l, .vacant hs⟩

lemma resolves_or_unchanged (hup : ∀ n names, n :: names <:+ p.names → n.1 = ".." →
      fs.find .entry ⟨p.anchor, n :: names⟩ ≠ .error .noEntry) :
    (∃ l, fs.Resolves p l) ∨ Fails (makeDirectories p fs) ∧ (makeDirectories p fs).2 = fs := by
  obtain ⟨anchor, names⟩ := p
  induction names with
  | nil =>
    by_cases hf : fs.find .entry ⟨anchor, []⟩ = .error .noEntry
    swap
    · exact resolves_or_unchanged_of_ne hf
    exact .inr (unchanged_of_anchor hf)
  | cons n names ih =>
    by_cases hf : fs.find .entry ⟨anchor, n :: names⟩ = .error .noEntry
    swap
    · exact resolves_or_unchanged_of_ne hf
    have hne : n.1 ≠ ".." := fun he => hup n names List.suffix_rfl he hf
    rcases ih fun m ms hm => hup m ms (hm.trans (List.suffix_cons n names)) with ⟨l, hl⟩ | hstays
    · exact .inl ⟨n.1 :: l, .child (p := ⟨anchor, names⟩) hf hne hl⟩
    · exact .inr (unchanged_child (p := ⟨anchor, names⟩) hf hstays)

end

end FileSystem

end Scaffold
