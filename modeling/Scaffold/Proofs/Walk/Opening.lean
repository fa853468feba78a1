import Scaffold.Proofs.Walk.Window

namespace Scaffold

namespace FileSystem

open Attempt FileAction

def openTo (fs : FileSystem) : Location → FileSystem
  | [] => fs
  | n :: loc => (fs.openTo loc).set (n :: loc) .directory

/-- Nothing is at the path, and once the missing directories above are made, it is looked up at the
location. -/
inductive Missing (fs : FileSystem) : Path → Location → Prop
  | vacant {p : Path} {loc : Location} (h : fs.find .entry p = .ok (.vacant loc)) : Missing fs p loc
  | child {p : Path} {loc : Location} {n : Name} (h : fs.find .entry (p.child n) = .error .noEntry)
      (hn : isEntryName n.1 = true) (hp : Missing fs p loc) : Missing fs (p.child n) (n.1 :: loc)

/-- Nothing is at the path, and no `..` in it comes behind a missing name, from where it would lead
back to what is there. -/
structure Absent (fs : FileSystem) (p : Path) : Prop where
  nothing : ∀ l e, fs.find .entry p ≠ .ok (.there l e)
  noUp : ∀ n names, n :: names <:+ p.names → n.1 = ".." →
    fs.find .entry ⟨p.anchor, n :: names⟩ ≠ .error .noEntry

section

variable {fs fs' : FileSystem} {loc l : Location} {p : Path} {n : Name}

lemma get?_of_suffix (h : fs.get? loc = some .directory) (hl : l <:+ loc) :
    fs.get? l = some .directory := by
  induction loc with
  | nil => rwa [List.suffix_nil.mp hl]
  | cons n loc ih =>
    rcases List.suffix_cons_iff.mp hl with rfl | hl
    · exact h
    · exact ih (get?_parent h).2 hl

lemma openTo_of_directory (h : fs.get? loc = some .directory) : fs.openTo loc = fs := by
  induction loc with
  | nil => rfl
  | cons n loc ih =>
    rw [openTo, ih (get?_parent h).2, set, dif_neg fun hc => hc.2 h]

lemma extends_set (h : fs.get? loc = none) (e : Entry) : fs.Extends (fs.set loc e) :=
  extends_of_agrees (agrees_set fs loc e) h

structure Opened (fs fs' : FileSystem) (loc : Location) : Prop where
  missing : fs.get? loc = none
  grows : fs.Extends fs'
  holds : fs'.Holds loc (.directory .nil)
  get? : ∀ l, fs'.get? l = if l <:+ loc then some .directory else fs.get? l

lemma opened_set {k : String} (hc : fs.canHold (k :: loc) = true)
    (hv : fs.get? (k :: loc) = none) : fs.Opened (fs.set (k :: loc) .directory) (k :: loc) := by
  refine ⟨hv, extends_set hv _, (Tree.holds_writeTo (.directory .nil) trivial hc hv).1,
    fun l => ?_⟩
  rw [get?_set fs _ l _ hc (by simp [hv])]
  by_cases hl : l = k :: loc
  · rw [if_pos hl, hl, if_pos List.suffix_rfl]
  · rw [if_neg hl]
    by_cases hs : l <:+ k :: loc
    · rw [if_pos hs]
      exact get?_of_suffix ((canHold_iff fs k loc).mp hc).2
        ((List.suffix_cons_iff.mp hs).resolve_left hl)
    · rw [if_neg hs]

lemma Opened.cons {k : String} (h : fs.Opened fs' loc) (hk : isEntryName k = true) :
    fs.Opened (fs'.set (k :: loc) .directory) (k :: loc) := by
  have hv : fs'.get? (k :: loc) = none := h.holds.get?_child k
  have hs := opened_set ((canHold_iff fs' k loc).mpr ⟨hk, h.holds.get?_self⟩) hv
  refine ⟨get?_below (by simp [h.missing]) k [], h.grows.trans hs.grows, hs.holds, fun l => ?_⟩
  rw [hs.get?, h.get?]
  by_cases hl : l <:+ loc
  · simp [hl.trans (List.suffix_cons k loc)]
  · rw [if_neg hl]

lemma fits_of_noEntry (h : fs.find .entry p = .error .noEntry) : p.byteLength ≤ pathLimit := by
  by_contra hlen
  rw [find] at h
  by_cases hnul : p.hasNul = true
  · rw [if_pos hnul] at h
    cases h
  · rw [if_neg hnul, if_pos (Nat.not_le.mp hlen)] at h
    cases h

lemma makeDirectories_child (h : fs.find .entry (p.child n) = .error .noEntry) :
    makeDirectories (p.child n) fs =
      (makeDirectories p >>= fun _ => makeOneDirectory (p.child n)) fs := by
  have hno : fs.makeDirectory ⟨p.anchor, n :: p.names⟩ = .error .noEntry := by
    have hfind : fs.find .entry ⟨p.anchor, n :: p.names⟩ = .error .noEntry := h
    rw [makeDirectory, hfind]
  simp only [makeDirectories, Path.child, makeDirectoriesAt, hno]

lemma Missing.opened (h : fs.Missing p loc) :
    makeDirectories p fs = (.ok (), fs.openTo loc) ∧ fs.Opened (fs.openTo loc) loc ∧
      (fs.openTo loc).Leads p loc := by
  induction h with
  | vacant h =>
    rename_i p loc
    have hc := canHold_of_vacant h
    cases loc with
    | nil => cases hc
    | cons n loc =>
      have hopen : fs.openTo (n :: loc) = fs.set (n :: loc) .directory := by
        rw [openTo, openTo_of_directory ((canHold_iff fs n loc).mp hc).2]
      have ho := opened_set hc (get?_of_vacant h)
      rw [hopen]
      exact ⟨makeDirectories_of_none h, ho, leads_of_vacant h ho.grows ho.holds.get?_self⟩
  | child h hn hp ih =>
    rename_i p loc n
    obtain ⟨hmake, ho, hleads⟩ := ih
    have hvacant : (fs.openTo loc).find .entry (p.child n) = .ok (.vacant (n.1 :: loc)) :=
      (hleads.denotes hn (fits_of_noEntry h)).find_vacant (ho.holds.get?_child n.1) .entry
    have hcons := ho.cons hn
    have hone : makeOneDirectory (p.child n) (fs.openTo loc) =
        (.ok (), fs.openTo (n.1 :: loc)) := by
      rw [makeOneDirectory, makeDirectory, hvacant]
      rfl
    refine ⟨?_, hcons, leads_of_vacant hvacant (extends_set (get?_of_vacant hvacant) _)
      hcons.holds.get?_self⟩
    rw [makeDirectories_child h, bind_of_ok hmake]
    exact hone

lemma Missing.unique (h : fs.Missing p loc) (h' : fs.Missing p l) : l = loc := by
  obtain ⟨hmake, -, hleads⟩ := h.opened
  obtain ⟨hmake', -, hleads'⟩ := h'.opened
  have hopen : fs.openTo l = fs.openTo loc := congrArg Prod.snd (hmake'.symm.trans hmake)
  rw [hopen] at hleads'
  have hspot := Except.ok.inj (hleads'.symm.trans hleads)
  cases hspot
  rfl

lemma Leads.find_child_ne (h : fs.Leads p loc) (hup : n.1 ≠ "..") :
    fs.find .entry (p.child n) ≠ .error .noEntry := by
  intro hno
  by_cases hfit : isEntryName n.1 = true ∧ (p.child n).byteLength ≤ pathLimit
  · rw [(h.denotes hfit.1 hfit.2).entry] at hno
    cases hno
  · obtain ⟨r, hr, hq⟩ := h.refused hup hfit
    exact hr (Except.error.inj ((hq .entry).symm.trans hno))

lemma Absent.parent (h : fs.Absent (p.child n)) (hp : ∀ l e, fs.find .entry p ≠ .ok (.there l e)) :
    fs.Absent p :=
  ⟨hp, fun m names hm => h.noUp m names (hm.trans (List.suffix_cons n p.names))⟩

lemma missing_child_or_fails (h : fs.find .entry (p.child n) = .error .noEntry) (hup : n.1 ≠ "..")
    (hp : (∀ l e, fs.find .entry p ≠ .ok (.there l e)) →
      (∃ loc, fs.Missing p loc) ∨ Fails (makeDirectories p fs)) :
    (∃ loc, fs.Missing (p.child n) loc) ∨ Fails (makeDirectories (p.child n) fs) := by
  rw [makeDirectories_child h]
  by_cases hthere : ∃ l e, fs.find .entry p = .ok (.there l e)
  · obtain ⟨l, e, hl⟩ := hthere
    right
    apply fails_bind_left
    apply fails_makeDirectories_of_there hl
    intro hd
    obtain ⟨loc, hleads⟩ := leads_of_isDirectory hd
    exact hleads.find_child_ne hup h
  rcases hp (by simpa using hthere) with ⟨loc, hm⟩ | hfail
  · by_cases hn : isEntryName n.1 = true
    · exact .inl ⟨n.1 :: loc, .child h hn hm⟩
    · right
      obtain ⟨hmake, -, hleads⟩ := hm.opened
      obtain ⟨r, -, hr⟩ := hleads.refused hup fun hfit => hn hfit.1
      rw [bind_of_ok hmake]
      exact fails_makeOneDirectory_of_refused (hr .entry)
  · right
    exact fails_bind_left hfail _

lemma Absent.missing_or_fails (h : fs.Absent p) :
    (∃ loc, fs.Missing p loc) ∨ Fails (makeDirectories p fs) := by
  obtain ⟨anchor, names⟩ := p
  induction names with
  | nil =>
    rcases hf : fs.find .entry ⟨anchor, []⟩ with r | (⟨l, e⟩ | l)
    · exact .inr (fails_makeOneDirectory_of_refused hf)
    · exact absurd hf (h.nothing l e)
    · exact .inl ⟨l, .vacant hf⟩
  | cons n names ih =>
    rcases hf : fs.find .entry ⟨anchor, n :: names⟩ with r | (⟨l, e⟩ | l)
    · by_cases hr : r = .noEntry
      · subst hr
        have hup : n.1 ≠ ".." := fun hup => h.noUp n names List.suffix_rfl hup hf
        exact missing_child_or_fails (p := ⟨anchor, names⟩) hf hup fun hp => ih (h.parent hp)
      · exact .inr (fails_makeDirectories_of_refused hf hr)
    · exact absurd hf (h.nothing l e)
    · exact .inl ⟨l, .vacant hf⟩

end

lemma Opened.window {fs : FileSystem} {D : Location} {dest : Path}
    (h : fs.Opened (fs.openTo D) D) (hd : (fs.openTo D).Leads dest D) :
    Window (fun g => g.writeTo (fs.openTo D) D) dest D :=
  ⟨hd, fun _ hg => (Forest.holds_writeTo hg h.holds).1,
    fun _ hg => (Forest.holds_writeTo hg h.holds).2⟩

lemma Opened.source {fs : FileSystem} {D T : Location} {root : Path} {f : Forest}
    (h : fs.Opened (fs.openTo D) D) (hroot : fs.Leads root T) (hf : fs.Holds T (.directory f))
    (hs : f.Sorted) (hout : ¬ T <:+ D) : Source (fs.openTo D) D root T f := by
  refine ⟨hroot.extends h.grows, fun ks => ?_, hs, fun hD => ?_, hout⟩
  · rw [h.get?, if_neg, hf ks]
    exact fun hD => hout ((List.suffix_append _ T).trans hD)
  · have hdir := get?_of_suffix hf.get?_self hD
    rw [h.missing] at hdir
    cases hdir

lemma Absent.staged {fs : FileSystem} {T : Location} {root dest : Path} (h : fs.Absent dest)
    (hroot : fs.Leads root T) (hout : ∀ D, fs.Missing dest D → ¬ T <:+ D) :
    Fails (makeDirectories dest fs) ∨
    ∃ D f, fs.Missing dest D ∧ fs.Holds T (.directory f) ∧ f.Sorted ∧
      Window (fun g => g.writeTo (fs.openTo D) D) dest D ∧ Source (fs.openTo D) D root T f := by
  rcases h.missing_or_fails with ⟨D, hD⟩ | hfail
  swap
  · exact .inl hfail
  obtain ⟨f, hf, hs⟩ := exists_forest_of_directory hroot.get?
  obtain ⟨-, ho, hleads⟩ := hD.opened
  exact .inr ⟨D, f, hD, hf, hs, ho.window hleads, ho.source hroot hf hs (hout D hD)⟩

end FileSystem

end Scaffold
