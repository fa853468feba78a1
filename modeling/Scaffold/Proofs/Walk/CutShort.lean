import Scaffold.Proofs.Walk.Clearing
import Scaffold.Proofs.Walk.Fresh

namespace Scaffold

/-- A copy of the first forest comes to an entry that cannot be copied, and the second is what it
has made until then: all the entries before, whole, and the directories that this one is in. -/
inductive Forest.CutShort : Pair → Forest → Forest → Prop
  | here {p : Pair} {n : Name} {t : Tree} {rest : Forest}
      (h : (p.child p.dest n).check ≠ .ok () ∨ t = .pipe) : CutShort p (.cons n t rest) .nil
  | inside {p : Pair} {n : Name} {f g rest : Forest} (hp : (p.child p.dest n).check = .ok ())
      (h : CutShort (p.child p.dest n) f g) :
      CutShort p (.cons n (.directory f) rest) (.cons n (.directory g) .nil)
  | later {p : Pair} {n : Name} {t : Tree} {rest g : Forest} (ht : t.Fits (p.child p.dest n))
      (h : CutShort p rest g) : CutShort p (.cons n t rest) (.cons n t g)

lemma Forest.exists_cutShort (f : Forest) {p : Pair} (h : ¬ f.Fits p) : ∃ g, f.CutShort p g := by
  cases f with
  | nil => exact absurd trivial h
  | cons n t rest =>
    by_cases ht : t.Fits (p.child p.dest n)
    · obtain ⟨g, hg⟩ := Forest.exists_cutShort rest fun hrest => h ⟨ht, hrest⟩
      exact ⟨_, .later ht hg⟩
    by_cases hp : (p.child p.dest n).check = .ok ()
    swap
    · exact ⟨.nil, .here (.inl hp)⟩
    cases t with
    | directory f =>
      obtain ⟨g, hg⟩ := Forest.exists_cutShort f fun hf => ht ⟨hp, hf⟩
      exact ⟨_, .inside hp hg⟩
    | pipe => exact ⟨.nil, .here (.inr rfl)⟩
    | link | file => exact absurd hp ht

lemma Forest.CutShort.names {p : Pair} {f g : Forest} (h : f.CutShort p g) :
    ∀ n ∈ g.names, n ∈ f.names := by
  induction h with
  | here => exact fun _ hn => absurd hn List.not_mem_nil
  | inside => exact fun _ hn => List.mem_cons.mpr (.inl (List.mem_singleton.mp hn))
  | later _ _ ih => exact fun _ hn => List.mem_cons.mpr ((List.mem_cons.mp hn).imp id (ih _))

lemma Forest.CutShort.sorted {p : Pair} {f g : Forest} (h : f.CutShort p g) (hf : f.Sorted) :
    g.Sorted := by
  induction h with
  | here => trivial
  | inside _ _ ih => exact ⟨fun _ hm => absurd hm List.not_mem_nil, ih hf.2.1, trivial⟩
  | later _ h ih => exact ⟨fun m hm => hf.1 m (h.names m hm), hf.2.1, ih hf.2.2⟩

namespace Walk

open Attempt FileAction FileSystem

section

variable {fs : FileSystem} {p : Pair} {e : Entry} {see : Forest → FileSystem} {out src : Path}
  {loc sloc : Location} {acc f : Forest} {n : Name} {t : Tree}

lemma copyEntry_of_refused {r : Refusal} (hr : r ≠ .noEntry)
    (h : ∀ q, fs.find q p.dest = .error r) (e : Entry) :
    ∃ c, copyEntry p e fs = (.error c, fs) := by
  obtain ⟨c, hc⟩ := fails_copyEntry_of_refused hr h e
  by_cases hdir : e = .directory
  · subst hdir
    exact openDirectory_of_unchanged (unchanged_of_refused (h .entry) hr) p.source
  obtain ⟨fs₁, hfrees, hfills, -⟩ := copyEntry_replaces hdir p fs
  refine ⟨c, Prod.ext hc ?_⟩
  obtain rfl : fs₁ = fs := by
    rcases hfrees with rfl | hremove
    · rfl
    · obtain ⟨l, d, hl, -⟩ := removeFile_eq_ok hremove
      cases (h .entry).symm.trans hl
  rcases hfills with hsame | ⟨q, l, hl, -⟩
  · exact hsame
  · cases (h q).symm.trans hl

lemma copyVisit_of_unfit (w : Window see out loc) (s : Source (see .nil) loc src sloc f)
    (hacc : acc.Proper) (ht : f.find? n.1 = some t)
    (h : (Pair.child ⟨src, out⟩ out n).check ≠ .ok () ∨ t = .pipe) :
    ∃ c, copyVisit (Pair.child ⟨src, out⟩ out n) (see acc) = (.error c, see acc) := by
  by_cases hl : (src.child n).byteLength ≤ pathLimit
  swap
  · obtain ⟨r, hr⟩ := (w.source (k := n) s hacc (.refl _ _)).refused ht hl .entry
    have hentry : (see acc).entryAt (src.child n) = .error r := by rw [entryAt, hr]
    exact copyVisit_of_refused (p := ⟨src.child n, out.child n⟩) hentry
  have hvisit := copyVisit_eq (p := ⟨src.child n, out.child n⟩) (entryAt_child w s hacc ht hl)
  obtain ⟨c, hc⟩ : ∃ c, copyEntry ⟨src.child n, out.child n⟩ t.entry (see acc) =
      (.error c, see acc) := by
    rcases h with hcheck | rfl
    · obtain ⟨r, hr, hq⟩ := w.refused hacc ((isEntryName_iff n).mp (s.isEntryName ht)).1
        fun hfit => hcheck (if_pos ⟨hl, hfit.2⟩)
      exact copyEntry_of_refused hr hq t.entry
    · exact ⟨_, rfl⟩
  exact ⟨_, hvisit.trans (mapFailure_of_error hc _)⟩

end

end Walk

open Walk FileSystem Attempt

lemma Forest.CutShort.run {p : Pair} {g h : Forest} (hcut : g.CutShort p h)
    {see : Forest → FileSystem} {loc sloc : Location} {acc f : Forest}
    (w : Window see p.dest loc) (s : Source (see .nil) loc p.source sloc f) (hacc : acc.Proper)
    (hg : g.Sorted) (hf : ∀ k t, g.find? k = some t → f.find? k = some t)
    (hfree : ∀ n ∈ g.names, n ∉ acc.names) (rest : List Pair) :
    (acc.append h).Proper ∧
      ∃ e, Walk.run copyVisit (g.names.map (p.child p.dest) ++ rest) (see acc) =
        (.error e, see (acc.append h)) := by
  induction hcut generalizing see loc sloc acc f rest with
  | @here p n t tail hunfit =>
    have ht := hf n.1 t (Forest.find?_cons_self n t tail)
    obtain ⟨c, hc⟩ := copyVisit_of_unfit w s hacc ht hunfit
    rw [acc.append_nil]
    exact ⟨hacc, c, run_of_error hc _⟩
  | @inside p n f' g' tail hp _ ih =>
    have ht := hf n.1 _ (Forest.find?_cons_self n (.directory f') tail)
    have hname : isEntryName n.1 = true := s.isEntryName ht
    have hn : n ∉ acc.names := hfree n List.mem_cons_self
    obtain ⟨hl, hl'⟩ := fits_of_check hp
    have hopen := copyEntry_directory w s hacc ht hl hname hl'
    rw [Forest.find?_of_not_mem hn] at hopen
    have hvisit := (copyVisit_eq (p := p.child p.dest n) (entryAt_child w s hacc ht hl)).trans
      (mapFailure_of_ok hopen.2 _)
    obtain ⟨hproper, e, he⟩ := ih (w.inner hacc hname hl') (w.innerSource s hacc hname ht hl)
      (show Forest.nil.Proper from trivial) hg.2.1 (fun _ _ hu => hu) (fun _ _ => List.not_mem_nil)
      (tail.names.map (p.child p.dest) ++ rest)
    rw [← Forest.put_of_not_mem hn]
    exact ⟨hacc.put hname hproper, e, (run_of_ok hvisit hl).trans he⟩
  | @later p n t tail g' hfit _ ih =>
    have ht := hf n.1 t (Forest.find?_cons_self n t tail)
    have hname : isEntryName n.1 = true := s.isEntryName ht
    have hn : n ∉ acc.names := hfree n List.mem_cons_self
    have hcopied : t.copied ⟨p.source.child n, p.dest.child n⟩ none = .ok t :=
      (t.copied_fresh hg.2.1 _).1 hfit
    have hwhole := t.copied_performs w s hacc ht hname
    rw [Forest.find?_of_not_mem hn, hcopied] at hwhole
    obtain ⟨hproper, hrun⟩ := hwhole
    have hfree' : ∀ m ∈ tail.names, m ∉ (acc.put n t).names := fun m hm hmem => by
      rcases Forest.mem_names_put hmem with rfl | hmem
      · exact hg.not_mem hm
      · exact hfree m (List.mem_cons_of_mem n hm) hmem
    obtain ⟨hall, e, he⟩ := ih w s (hacc.put hname hproper) hg.2.2
      (fun k u hu => hf k u (hg.find?_rest hu)) hfree' rest
    rw [Forest.put_append hn] at hall he
    exact ⟨hall, e, (hrun _).trans he⟩

namespace Walk

lemma copyTree_cutShort {fs : FileSystem} {source dest : Path} {S D : Location} {f : Forest}
    (hdest : fs.Missing dest D) (hsource : fs.find .entry source = .ok (.there S .directory))
    (hf : fs.Holds S (.directory f)) (hs : f.Sorted) (hout : ¬ S <:+ D)
    (hfit : ¬ f.Fits ⟨source, dest⟩) :
    ∃ g e, f.CutShort ⟨source, dest⟩ g ∧
      copyTree source dest fs = (.error e, g.writeTo (fs.openTo D) D) ∧
      (g.writeTo (fs.openTo D) D).Holds D (.directory g) := by
  obtain ⟨hmake, ho, hleads⟩ := hdest.opened
  have w := ho.window hleads
  have s : Source (fs.openTo D) D source S f := ho.source (leads_of_entry hsource) hf hs hout
  have hopen : openDirectory source dest fs = (.ok (dest, f.names), fs.openTo D) := by
    rw [openDirectory, bind_of_ok hmake, bind_of_ok (FileAction.ask_of_ok s.list)]
    rfl
  have hentry : fs.entryAt source = .ok .directory := by rw [FileSystem.entryAt, hsource]
  obtain ⟨g, hg⟩ := f.exists_cutShort hfit
  obtain ⟨hproper, e, he⟩ := hg.run w s (show Forest.nil.Proper from trivial) hs
    (fun _ _ hu => hu) (fun _ _ => List.not_mem_nil) []
  rw [List.append_nil] at he
  exact ⟨g, e, hg, (copyTree_of_opened hentry hopen).trans he, w.holds g hproper⟩

end Walk

end Scaffold
