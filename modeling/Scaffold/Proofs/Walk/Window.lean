import Scaffold.Proofs.FileSystem.Listing
import Scaffold.Proofs.Walk.Steps

/-! A walk sees the file system through what it has made so far: the forest that stands in a
directory of the new tree determines everything else. -/

namespace Scaffold.FileSystem

open Attempt FileAction

/-- For each forest, `see` is the file system in which it stands at the location that the path leads
to, while all the rest is fixed. -/
structure Window (see : Forest → FileSystem) (out : Path) (loc : Location) : Prop where
  leads : (see .nil).Leads out loc
  holds : ∀ g, g.Proper → (see g).Holds loc (.directory g)
  agrees : ∀ g, g.Proper → (see .nil).AgreesOutside (see g) loc

structure Source (fs : FileSystem) (loc : Location) (src : Path) (sloc : Location) (f : Forest) :
    Prop where
  leads : fs.Leads src sloc
  holds : fs.Holds sloc (.directory f)
  sorted : f.Sorted
  apart : ¬ loc <:+ sloc
  apart' : ¬ sloc <:+ loc

section

variable {see : Forest → FileSystem} {out : Path} {loc : Location} {acc : Forest} {n : Name}
  {t : Tree}

lemma Window.extends (w : Window see out loc) {fs : FileSystem}
    (ha : (see .nil).AgreesOutside fs loc) (hd : fs.get? loc = some .directory) :
    (see .nil).Extends fs := by
  refine ⟨ha.workDir, fun {l e} hl => ?_⟩
  by_cases hs : loc <:+ l
  · have hnil := w.holds .nil trivial
    obtain rfl := hnil.eq_of_nil hs hl
    exact hd.trans (hnil.get?_self.symm.trans hl)
  · rw [ha.get? l hs, hl]

lemma Window.leads_of_agrees (w : Window see out loc) (hacc : acc.Proper) {fs : FileSystem}
    {k : String} (ha : (see acc).AgreesOutside fs (k :: loc)) : (see .nil).Extends fs := by
  apply w.extends ((w.agrees acc hacc).trans (ha.widen (List.suffix_cons k loc)))
  exact (ha.get? loc (not_suffix_parent k loc)).trans (w.holds acc hacc).get?_self

lemma Window.get?_child (w : Window see out loc) (hacc : acc.Proper) :
    (see acc).get? (n.1 :: loc) = (acc.find? n.1).map Tree.entry :=
  (w.holds acc hacc).get?_child n.1

lemma Window.get?_child_ne (w : Window see out loc) (hacc : acc.Proper) :
    (see acc).get? (n.1 :: loc) ≠ some .pipe := by
  intro hp
  rw [w.get?_child hacc] at hp
  obtain ⟨t, ht, he⟩ := Option.map_eq_some_iff.mp hp
  exact (hacc.find? ht).1.entry_ne he

lemma Window.place (w : Window see out loc) (hacc : acc.Proper) (hn : isEntryName n.1 = true)
    (hl : (out.child n).byteLength ≤ pathLimit) : (see acc).Place (out.child n) (n.1 :: loc) :=
  ⟨(canHold_iff _ _ _).mpr ⟨hn, (w.holds acc hacc).get?_self⟩,
    fun _ ha => (w.leads.extends (w.leads_of_agrees hacc ha)).denotes hn hl⟩

lemma Window.refused (w : Window see out loc) (hacc : acc.Proper) (hup : n.1 ≠ "..")
    (h : ¬ (isEntryName n.1 = true ∧ (out.child n).byteLength ≤ pathLimit)) :
    ∃ r, r ≠ .noEntry ∧ ∀ q, (see acc).find q (out.child n) = .error r :=
  (w.leads.extends (w.leads_of_agrees hacc (.refl _ (n.1 :: loc)))).refused hup h

lemma Window.replace (w : Window see out loc) (hacc : acc.Proper) (hn : isEntryName n.1 = true)
    (hd : (see acc).get? (n.1 :: loc) ≠ some .directory) {t : Tree} (ht : t.entry ≠ .directory)
    (hp : t.entry ≠ .pipe) :
    (see acc).replace (n.1 :: loc) t.entry = see (acc.put n t) := by
  have hput := hacc.put hn (Tree.proper_of_leaf ht hp)
  have ha := agrees_replace (see acc) (n.1 :: loc) t.entry
  have hc : ((see acc).erase (n.1 :: loc)).canHold (n.1 :: loc) = true :=
    (canHold_iff _ _ _).mpr ⟨hn, ((agrees_erase _ _).get? loc (not_suffix_parent n.1 loc)).trans
      (w.holds acc hacc).get?_self⟩
  have hget : ((see acc).replace (n.1 :: loc) t.entry).get? (n.1 :: loc) = some t.entry :=
    get?_set_self hc (by simp [get?_erase_self hd])
  apply ((w.holds acc hacc).put ha (holds_of_leaf hget ht)).eq (w.holds _ hput)
  exact (ha.widen (List.suffix_cons n.1 loc)).symm.trans
    ((w.agrees acc hacc).symm.trans (w.agrees _ hput))

lemma Window.set_directory (w : Window see out loc) (hacc : acc.Proper)
    (hn : isEntryName n.1 = true) (hv : (see acc).get? (n.1 :: loc) = none) :
    (see acc).set (n.1 :: loc) .directory = see (acc.put n (.directory .nil)) := by
  have hput := hacc.put hn (t := .directory .nil) trivial
  have hc : (see acc).canHold (n.1 :: loc) = true :=
    (canHold_iff _ _ _).mpr ⟨hn, (w.holds acc hacc).get?_self⟩
  obtain ⟨hh, ha⟩ := Tree.holds_writeTo (.directory .nil) trivial hc hv
  apply ((w.holds acc hacc).put ha hh).eq (w.holds _ hput)
  exact (ha.widen (List.suffix_cons n.1 loc)).symm.trans
    ((w.agrees acc hacc).symm.trans (w.agrees _ hput))

lemma Window.holds_put (w : Window see out loc) (hput : (acc.put n t).Proper) :
    (see (acc.put n t)).Holds (n.1 :: loc) t :=
  (w.holds _ hput).child (by rw [Forest.find?_put, if_pos rfl])

lemma Window.agrees_put (w : Window see out loc) (hacc : acc.Proper) (hput : (acc.put n t).Proper) :
    (see acc).AgreesOutside (see (acc.put n t)) (n.1 :: loc) := by
  have ha := (w.agrees _ hacc).symm.trans (w.agrees _ hput)
  refine ⟨ha.workDir, fun l hl => ?_⟩
  by_cases hs : loc <:+ l
  · obtain ⟨ks, rfl⟩ := hs
    rw [← List.reverse_reverse ks, w.holds _ hput, w.holds _ hacc]
    cases hr : ks.reverse with
    | nil => rfl
    | cons k ks' =>
      have hk : ¬ n.1 = k := by
        rintro rfl
        refine hl ⟨ks'.reverse, ?_⟩
        rw [← List.reverse_reverse ks, hr]
        simp
      simp only [Tree.entryAt, Forest.find?_put, if_neg hk]
  · exact ha.get? l hs

lemma Window.inner (w : Window see out loc) (hacc : acc.Proper) (hn : isEntryName n.1 = true)
    (hl : (out.child n).byteLength ≤ pathLimit) :
    Window (fun g => see (acc.put n (.directory g))) (out.child n) (n.1 :: loc) := by
  have hput (g : Forest) (hg : g.Proper) : (acc.put n (.directory g)).Proper := hacc.put hn hg
  refine ⟨?_, fun g hg => w.holds_put (hput g hg), fun g hg => ?_⟩
  · have hp := w.place (hput .nil trivial) hn hl
    exact (hp.denotes _ (.refl _ _)).leads (w.holds_put (hput .nil trivial)).get?_self
  · exact (w.agrees_put hacc (hput .nil trivial)).symm.trans (w.agrees_put hacc (hput g hg))

end

section

variable {see : Forest → FileSystem} {out src : Path} {loc sloc : Location} {acc f : Forest}
  {k n : Name} {t : Tree} {fs : FileSystem}

lemma Source.list (s : Source fs loc src sloc f) : fs.list src = .ok f.names :=
  list_of_holds s.leads s.holds s.sorted

lemma Source.get?_child (s : Source fs loc src sloc f) (ht : f.find? n.1 = some t) :
    fs.get? (n.1 :: sloc) = some t.entry := by
  rw [s.holds.get?_child, ht]
  rfl

lemma Source.isEntryName (s : Source fs loc src sloc f) (ht : f.find? n.1 = some t) :
    isEntryName n.1 = true :=
  (get?_parent (s.get?_child ht)).1

lemma Source.denotes (s : Source fs loc src sloc f) (ht : f.find? n.1 = some t)
    (hl : (src.child n).byteLength ≤ pathLimit) : fs.Denotes (src.child n) (n.1 :: sloc) :=
  s.leads.denotes (s.isEntryName ht) hl

lemma Source.refused (s : Source fs loc src sloc f) (ht : f.find? n.1 = some t)
    (hl : ¬ (src.child n).byteLength ≤ pathLimit) (q : Purpose) :
    ∃ r, fs.find q (src.child n) = .error r := by
  obtain ⟨r, -, hr⟩ := s.leads.refused ((isEntryName_iff n).mp (s.isEntryName ht)).1
    fun h => hl h.2
  exact ⟨r, hr q⟩

lemma Window.source (w : Window see out loc) (s : Source (see .nil) loc src sloc f)
    (hacc : acc.Proper) (ha : (see acc).AgreesOutside fs (k.1 :: loc)) :
    Source fs loc src sloc f := by
  have ha' := (w.agrees acc hacc).trans (ha.widen (List.suffix_cons k.1 loc))
  exact ⟨s.leads.extends (w.leads_of_agrees hacc ha), s.holds.agrees ha' s.apart s.apart',
    s.sorted, s.apart, s.apart'⟩

lemma Window.shows (w : Window see out loc) (s : Source (see .nil) loc src sloc f)
    (hacc : acc.Proper) (ht : f.find? n.1 = some t)
    (hl : (src.child n).byteLength ≤ pathLimit) :
    (see acc).Shows (k.1 :: loc) (src.child n) t.entry := by
  intro fs ha
  have s' := w.source s hacc ha
  exact ⟨n.1 :: sloc, s'.denotes ht hl, s'.get?_child ht⟩

lemma Window.innerSource (w : Window see out loc) {g : Forest}
    (s : Source (see .nil) loc src sloc f) (hacc : acc.Proper) (hk : isEntryName k.1 = true)
    (ht : f.find? n.1 = some (.directory g)) (hl : (src.child n).byteLength ≤ pathLimit) :
    Source (see (acc.put k (.directory .nil))) (k.1 :: loc) (src.child n) (n.1 :: sloc) g := by
  have s' := w.source (k := k) s (hacc.put (t := .directory .nil) hk trivial) (.refl _ _)
  refine ⟨(s'.denotes ht hl).leads (s'.get?_child ht), s'.holds.child ht, ?_, ?_, ?_⟩
  · exact s.sorted.find? ht
  · intro h
    rcases List.suffix_cons_iff.mp h with h | h
    · exact s.apart' ((List.cons.inj h).2 ▸ List.suffix_rfl)
    · exact s.apart ((List.suffix_cons k.1 loc).trans h)
  · intro h
    rcases List.suffix_cons_iff.mp h with h | h
    · exact s.apart' ((List.cons.inj h).2 ▸ List.suffix_rfl)
    · exact s.apart' ((List.suffix_cons n.1 sloc).trans h)

end

end Scaffold.FileSystem
