import Scaffold.FileSystem.Canonical
import Scaffold.Proofs.Walk.Agreement
import Scaffold.Proofs.Walk.Preorder
import Scaffold.Proofs.Walk.Resolving

/-! A copy visits every entry of its source once, in the order of their paths, up to where it fails,
and leaves the source as it is. What it writes is never in the source, also where it cuts off its
own way. -/

namespace Scaffold

namespace Walk

open Attempt FileAction FileSystem

def Passes (work visited : List Pair) (fs : FileSystem) (after spared : FileSystem → Prop) :
    Prop :=
  (∃ fs', after fs' ∧ ∀ rest log r, Turns copyVisit rest fs' log r →
    ∃ log', Turns copyVisit (work ++ rest) fs log' r ∧
      log'.map Turn.pair = visited ++ log.map Turn.pair) ∨
  ∃ e fs', spared fs' ∧ ∀ rest, ∃ log, Turns copyVisit (work ++ rest) fs log (.error e, fs') ∧
    log.map Turn.pair <+: visited

section

variable {fs fs₁ : FileSystem} {p : Pair} {work visited visited' : List Pair} {out : Path}
  {names : List Name} {after after' spared spared' : FileSystem → Prop} {e : Failure}

lemma passes_nil (h : after fs) : Passes [] [] fs after spared :=
  .inl ⟨fs, h, fun _ log _ ht => ⟨log, ht, rfl⟩⟩

lemma passes_of_error (hv : copyVisit p fs = (.error e, fs₁)) (h : spared fs₁)
    (visited : List Pair) : Passes [p] (p :: visited) fs after spared :=
  .inr ⟨e, fs₁, h, fun _ => ⟨_, .failed hv, List.prefix_append [p] visited⟩⟩

lemma Passes.imp (h : Passes work visited fs after spared) (ha : ∀ fs', after fs' → after' fs')
    (hs : ∀ fs', spared fs' → spared' fs') : Passes work visited fs after' spared' :=
  Or.imp (fun ⟨fs', hfs', hrest⟩ => ⟨fs', ha fs' hfs', hrest⟩)
    (fun ⟨e, fs', hfs', hrest⟩ => ⟨e, fs', hs fs' hfs', hrest⟩) h

lemma Passes.of_visit (h : Passes (names.map (p.child out)) visited fs₁ after spared)
    (hv : copyVisit p fs = (.ok (out, names), fs₁)) :
    Passes [p] (p :: visited) fs after spared := by
  rcases h with ⟨fs', hfs', hrest⟩ | ⟨e, fs', hfs', hrest⟩
  · refine .inl ⟨fs', hfs', fun rest log r ht => ?_⟩
    obtain ⟨log', ht', hlog⟩ := hrest rest log r ht
    exact ⟨_, .next hv ht', congrArg (p :: ·) hlog⟩
  · refine .inr ⟨e, fs', hfs', fun rest => ?_⟩
    obtain ⟨log, ht, hlog⟩ := hrest rest
    exact ⟨_, .next hv ht, (List.prefix_cons_inj p).mpr hlog⟩

lemma passes_of_leaf (hv : copyVisit p fs = (.ok (out, []), fs₁)) (h : after fs₁) :
    Passes [p] [p] fs after spared := by
  have hnone : Passes (([] : List Name).map (p.child out)) [] fs₁ after spared := passes_nil h
  exact hnone.of_visit hv

lemma Passes.cons (h : Passes [p] visited fs after spared)
    (hw : ∀ fs₁, after fs₁ → Passes work visited' fs₁ after' spared) :
    Passes (p :: work) (visited ++ visited') fs after' spared := by
  rcases h with ⟨fs₁, hfs₁, hfirst⟩ | ⟨e, fs₁, hfs₁, hfirst⟩
  · rcases hw fs₁ hfs₁ with ⟨fs', hfs', hrest⟩ | ⟨e, fs', hfs', hrest⟩
    · refine .inl ⟨fs', hfs', fun rest log r ht => ?_⟩
      obtain ⟨log₁, ht₁, hlog₁⟩ := hrest rest log r ht
      obtain ⟨log', ht', hlog'⟩ := hfirst _ log₁ r ht₁
      exact ⟨log', ht', by rw [hlog', hlog₁, List.append_assoc]⟩
    · refine .inr ⟨e, fs', hfs', fun rest => ?_⟩
      obtain ⟨log₁, ht₁, hlog₁⟩ := hrest rest
      obtain ⟨log', ht', hlog'⟩ := hfirst _ log₁ _ ht₁
      exact ⟨log', ht', hlog' ▸ (List.prefix_append_right_inj visited).mpr hlog₁⟩
  · refine .inr ⟨e, fs₁, hfs₁, fun rest => ?_⟩
    obtain ⟨log, ht, hlog⟩ := hfirst (work ++ rest)
    exact ⟨log, ht, hlog.trans (List.prefix_append visited visited')⟩

lemma Passes.turns (h : Passes [p] visited fs spared spared) :
    ∃ log, Turns copyVisit [p] fs log (run copyVisit [p] fs) ∧ log.map Turn.pair <+: visited ∧
      ((run copyVisit [p] fs).1 = .ok () → log.map Turn.pair = visited) ∧
      spared (run copyVisit [p] fs).2 := by
  rcases h with ⟨fs', hfs', hrest⟩ | ⟨e, fs', hfs', hrest⟩
  · obtain ⟨log, ht, hlog⟩ := hrest [] [] _ (.done fs')
    rw [List.map_nil, List.append_nil] at hlog
    have hrun := ht.run_eq copyVisit_orderly
    rw [List.append_nil] at ht hrun
    rw [hrun]
    exact ⟨log, ht, hlog ▸ List.prefix_rfl, fun _ => hlog, hfs'⟩
  · obtain ⟨log, ht, hlog⟩ := hrest []
    have hrun := ht.run_eq copyVisit_orderly
    rw [List.append_nil] at ht hrun
    rw [hrun]
    exact ⟨log, ht, hlog, (fun hr => nomatch hr), hfs'⟩

end

def Spared (base : FileSystem) (S : Location) (fs : FileSystem) : Prop :=
  ∀ ks, fs.get? (ks ++ S) = base.get? (ks ++ S)

def KeepsDirectories (fs fs' : FileSystem) : Prop :=
  ∀ l, fs.get? l = some .directory → fs'.get? l = some .directory

structure Course (base : FileSystem) (r : Pair) (S D : Location) (fs : FileSystem) : Prop where
  source : fs.Leads r.source S
  dest : fs.Leads r.dest D
  spared : Spared base S fs
  link_ne : ∀ ks target, base.get? (ks ++ S) = some .directory →
    fs.get? (ks ++ D) ≠ some (.link target)

structure Abreast (base : FileSystem) (r : Pair) (S D : Location) (p : Pair) (s d : Location) :
    Prop where
  same : ∃ ks, s = ks ++ S ∧ d = ks ++ D
  source : ∀ {fs}, Course base r S D fs → fs.Leads p.source s
  dest : ∀ {fs}, Course base r S D fs → fs.get? d = some .directory → fs.Leads p.dest d
  back : ∀ {fs fs' : FileSystem}, Course base r S D fs → fs.get? d = some .directory →
    fs'.Extends fs → fs'.Leads p.source s → fs'.Leads p.dest d →
    fs'.Leads r.source S ∧ fs'.Leads r.dest D

section

variable {base fs fs₁ fs' : FileSystem} {S D s d l : Location} {r p : Pair}
  {n : Name} {e : Entry} {f : Forest} {t : Tree}

lemma Abreast.spared (a : Abreast base r S D p s d) (c : Course base r S D fs)
    (ks : List String) : fs.get? (ks ++ s) = base.get? (ks ++ s) := by
  obtain ⟨ms, rfl, -⟩ := a.same
  rw [← List.append_assoc]
  exact c.spared (ks ++ ms)

lemma Abreast.child (a : Abreast base r S D p s d)
    (he : base.get? (n.1 :: s) = some .directory)
    (hs : (p.source.child n).byteLength ≤ pathLimit)
    (hd : (p.dest.child n).byteLength ≤ pathLimit) :
    Abreast base r S D (p.child p.dest n) (n.1 :: s) (n.1 :: d) where
  same := by
    obtain ⟨ks, rfl, rfl⟩ := a.same
    exact ⟨n.1 :: ks, rfl, rfl⟩
  source c :=
    ((a.source c).denotes (get?_parent he).1 hs).leads ((a.spared c [n.1]).trans he)
  dest c hdir := by
    obtain ⟨hn, hparent⟩ := get?_parent hdir
    exact ((a.dest c hparent).denotes hn hd).leads hdir
  back c hdir hg hsource hdest := by
    have hparent := (get?_parent hdir).2
    exact a.back c hparent hg ((a.source c).of_child hg hsource)
      ((a.dest c hparent).of_child hg hdest)

lemma Course.spared_of_agrees (c : Course base r S D fs)
    (hapart : ∀ ks, ¬ D <:+ ks ++ S) (hl : D <:+ l) (ha : fs.AgreesOutside fs' l) :
    Spared base S fs' := fun ks =>
  (ha.get? _ fun hs => hapart ks (hl.trans hs)).trans (c.spared ks)

lemma Course.set_directory (c : Course base r S D fs) (hapart : ∀ ks, ¬ D <:+ ks ++ S)
    (hl : D <:+ l) (hnone : fs.get? l = none)
    (hset : (fs.set l .directory).get? l = some .directory) :
    Course base r S D (fs.set l .directory) := by
  have hgrows := extends_set hnone .directory
  refine ⟨c.source.extends hgrows, c.dest.extends hgrows,
    c.spared_of_agrees hapart hl (agrees_set _ _ _), fun ks target hdir => ?_⟩
  by_cases hk : ks ++ D = l
  · rw [hk, hset]
    simp
  · rw [get?_set_ne fs _ hk]
    exact c.link_ne ks target hdir

lemma Abreast.suffix (a : Abreast base r S D p s d) (n : String) : D <:+ n :: d := by
  obtain ⟨ks, -, rfl⟩ := a.same
  exact List.suffix_append (n :: ks) D

lemma Abreast.not_below (a : Abreast base r S D p s d)
    (he : base.get? (n.1 :: s) = some e) (hne : e ≠ .directory) {ks : List String}
    (hdir : base.get? (ks ++ S) = some .directory) : ¬ n.1 :: d <:+ ks ++ D := by
  rintro ⟨ms, hms⟩
  obtain ⟨ls, rfl, rfl⟩ := a.same
  obtain rfl : ms ++ n.1 :: ls = ks := List.append_cancel_right (by simpa using hms)
  have hbelow : base.get? (ms ++ (n.1 :: ls ++ S)) = some .directory := by simpa using hdir
  rcases eq_or_ne ms [] with rfl | hne'
  · exact hne (Option.some.inj (he.symm.trans hbelow))
  · exact hne (Option.some.inj (he.symm.trans (get?_of_below hbelow hne')))

variable (a : Abreast base r S D p s d) (c : Course base r S D fs)
  (hd : fs.get? d = some .directory)

include a c

lemma Abreast.find_source (he : base.get? (n.1 :: s) = some e) :
    (p.source.child n).byteLength ≤ pathLimit ∧
      fs.entryAt (p.child p.dest n).source = .ok e ∨
    ∃ f, copyVisit (p.child p.dest n) fs = (.error f, fs) := by
  have hn := (get?_parent he).1
  by_cases hlen : (p.source.child n).byteLength ≤ pathLimit
  · have hget : fs.get? (n.1 :: s) = some e := (a.spared c [n.1]).trans he
    exact .inl ⟨hlen, ((a.source c).denotes hn hlen).entryAt hget⟩
  · obtain ⟨r, -, hr⟩ := (a.source c).refused ((isEntryName_iff n).mp hn).1 fun h => hlen h.2
    have hentry : fs.entryAt (p.child p.dest n).source = .error r := by
      rw [FileSystem.entryAt, Pair.child, hr]
    exact .inr (copyVisit_of_refused hentry)

include hd

lemma Abreast.leaf_passes (hapart : ∀ ks, ¬ D <:+ ks ++ S) (he : base.get? (n.1 :: s) = some e)
    (hne : e ≠ .directory) : Passes [p.child p.dest n] [p.child p.dest n] fs
      (fun fs' => Course base r S D fs' ∧ KeepsDirectories fs fs') (Spared base S) := by
  have hup := ((isEntryName_iff n).mp (get?_parent he).1).1
  rcases a.find_source c he with ⟨hlen, hentry⟩ | ⟨f, hv⟩
  swap
  · exact passes_of_error hv c.spared []
  have hvisit := copyVisit_eq hentry
  obtain ⟨fs₁, hfrees, hfills, hfinds⟩ := copyEntry_replaces hne (p.child p.dest n) fs
  have hleads := a.dest c hd
  have ha := (hleads.agrees_frees hup hfrees).trans
    (hleads.agrees_fills hfrees.extends hup hfills)
  have hspared := c.spared_of_agrees hapart (a.suffix n.1) ha
  rcases hcopy : copyEntry (p.child p.dest n) e fs with ⟨f | ⟨out, names⟩, fs'⟩
  · rw [hcopy] at hspared
    exact passes_of_error (hvisit.trans (mapFailure_of_error hcopy _)) hspared []
  · rw [hcopy] at hfills hfinds ha hspared
    obtain ⟨⟨_, _, hsource⟩, ⟨_, _, hdest⟩⟩ := hfinds _ rfl
    obtain ⟨hroot, hto⟩ := a.back c hd hfrees.extends
      ((a.source c).of_child hfrees.extends hsource) (hleads.of_child hfrees.extends hdest)
    have hgrows := hfills.extends
    have c' : Course base r S D fs' := by
      refine ⟨hroot.extends hgrows, hto.extends hgrows, hspared, fun ks target hdir => ?_⟩
      rw [ha.get? _ (a.not_below he hne hdir)]
      exact c.link_ne ks target hdir
    obtain rfl := names_of_leaf hne hcopy
    exact passes_of_leaf (hvisit.trans (mapFailure_of_ok hcopy _))
      ⟨c', fun l hl => hgrows.get? (hfrees.keeps hl)⟩

lemma Abreast.opened (hapart : ∀ ks, ¬ D <:+ ks ++ S) (hf : base.Holds (n.1 :: s) (.directory f))
    (hs : f.Sorted) (hlen : (p.source.child n).byteLength ≤ pathLimit) :
    (∃ e, copyEntry (p.child p.dest n) .directory fs = (.error e, fs)) ∨
    ∃ fs₁, copyEntry (p.child p.dest n) .directory fs = (.ok (p.dest.child n, f.names), fs₁) ∧
      Course base r S D fs₁ ∧ KeepsDirectories fs fs₁ ∧
      fs₁.get? (n.1 :: d) = some .directory ∧ (p.dest.child n).byteLength ≤ pathLimit := by
  have hn := (get?_parent hf.get?_self).1
  have hleads := a.dest c hd
  by_cases hl : (p.dest.child n).byteLength ≤ pathLimit
  swap
  · obtain ⟨c, hc, hrefused⟩ := hleads.refused ((isEntryName_iff n).mp hn).1 fun h => hl h.2
    exact .inl (openDirectory_of_unchanged (unchanged_of_refused (hrefused .entry) hc) _)
  have hden := hleads.denotes hn hl
  have hopen {fs₁} (hmake : makeDirectories (p.dest.child n) fs = (.ok (), fs₁))
      (c₁ : Course base r S D fs₁) :
      copyEntry (p.child p.dest n) .directory fs = (.ok (p.dest.child n, f.names), fs₁) := by
    have hholds : fs₁.Holds (n.1 :: s) (.directory f) := fun ks => by
      have hsame := a.spared c₁ (ks.reverse ++ [n.1])
      rw [List.append_assoc] at hsame
      exact hsame.trans (hf ks)
    have hlist := list_of_holds ((a.child hf.get?_self hlen hl).source c₁) hholds hs
    exact (bind_of_ok hmake _).trans (bind_of_ok (ask_of_ok hlist) _)
  cases hold : fs.get? (n.1 :: d) with
  | none =>
    have hset : (fs.set (n.1 :: d) .directory).get? (n.1 :: d) = some .directory :=
      get?_set_self ((canHold_iff _ _ _).mpr ⟨hn, hd⟩) (by simp [hold])
    have c₁ := c.set_directory hapart (a.suffix n.1) hold hset
    exact .inr ⟨_, hopen (makeDirectories_of_none (hden.find_vacant hold .entry)) c₁, c₁,
      fun _ => (extends_set hold _).get?, hset, hl⟩
  | some e =>
    cases e with
    | directory =>
      exact .inr ⟨fs, hopen (makeDirectories_of_directory hden hold) c, c, fun _ => id, hold, hl⟩
    | link target =>
      obtain ⟨ks, rfl, rfl⟩ := a.same
      exact absurd hold (c.link_ne (n.1 :: ks) target hf.get?_self)
    | file | pipe =>
      have hthere := hden.find_there hold (by simp) .entry
      refine .inl (openDirectory_of_unchanged (unchanged_of_there hthere ?_) _)
      rw [isDirectory, hden.ask_targetAt (by simp [hold]), hold]
      simp [Entry.isDirectory]

end

end Walk

open Walk FileSystem Attempt

/-! The induction is on the source as it is found at first. -/

mutual

lemma Tree.passes (t : Tree) {base fs : FileSystem} {r p : Pair} {S D s d : Location} {n : Name}
    (hapart : ∀ ks, ¬ D <:+ ks ++ S) (a : Abreast base r S D p s d) (c : Course base r S D fs)
    (hd : fs.get? d = some .directory) (ht : base.Holds (n.1 :: s) t) (hs : t.Sorted) :
    Passes [p.child p.dest n] (t.pairs (p.child p.dest n)) fs
      (fun fs' => Course base r S D fs' ∧ KeepsDirectories fs fs') (Spared base S) := by
  by_cases hdir : t.entry = .directory
  · obtain ⟨f, rfl⟩ := Tree.eq_directory hdir
    rcases a.find_source c ht.get?_self with ⟨hlen, hentry⟩ | ⟨e, hv⟩
    swap
    · exact passes_of_error hv c.spared _
    have hvisit := copyVisit_eq hentry
    rcases a.opened c hd hapart ht hs hlen with ⟨e, he⟩ | ⟨fs₁, hopen, c₁, hkeeps, hd₁, hl⟩
    · exact passes_of_error (hvisit.trans (mapFailure_of_error he _)) c.spared _
    · have hbelow := Forest.passes f hapart (a.child ht.get?_self hlen hl) c₁ hd₁
        (fun _ _ hu => ht.child hu) hs
      have hwhole := hbelow.of_visit (hvisit.trans (mapFailure_of_ok hopen _))
      exact hwhole.imp (fun fs' h => ⟨h.1, fun l hk => h.2 l (hkeeps l hk)⟩) fun _ => id
  · rw [Tree.pairs_of_leaf hdir]
    exact a.leaf_passes c hd hapart ht.get?_self hdir

lemma Forest.passes (f : Forest) {base fs : FileSystem} {r p : Pair} {S D s d : Location}
    (hapart : ∀ ks, ¬ D <:+ ks ++ S) (a : Abreast base r S D p s d) (c : Course base r S D fs)
    (hd : fs.get? d = some .directory)
    (hf : ∀ k u, f.find? k = some u → base.Holds (k :: s) u) (hs : f.Sorted) :
    Passes (f.names.map (p.child p.dest)) (f.pairs p) fs
      (fun fs' => Course base r S D fs' ∧ KeepsDirectories fs fs') (Spared base S) := by
  cases f with
  | nil => exact passes_nil ⟨c, fun _ => id⟩
  | cons n t rest =>
    have hfirst := Tree.passes t hapart a c hd (hf n.1 t (Forest.find?_cons_self n t rest)) hs.2.1
    refine hfirst.cons fun fs₁ ⟨c₁, hkeeps⟩ => ?_
    have hrest := Forest.passes rest hapart a c₁ (hkeeps d hd)
      (fun k u hu => hf k u (hs.find?_rest hu)) hs.2.2
    exact hrest.imp (fun fs' h => ⟨h.1, fun l hk => h.2 l (hkeeps l hk)⟩) fun _ => id

end

namespace Walk

open FileAction

/-- With links resolved, neither path is the other or inside of it, nor do they lead to one link. At
the second no link stands where the first has a directory. No `..` comes behind a missing name, from
where a directory to be made would lead back, possibly to the first. -/
structure Separate (fs : FileSystem) (root dest : Path) : Prop where
  apart : ∀ S D, fs.Resolves root S → fs.Resolves dest D → ¬ S <:+ D ∧ ¬ D <:+ S
  other : ∀ S e d, fs.find .entry root = .ok (.there S e) →
    fs.find .entry dest ≠ .ok (.there S d)
  link_ne : ∀ S D ks target, fs.find .entry root = .ok (.there S .directory) →
    fs.Resolves dest D → fs.get? (ks ++ S) = some .directory →
    fs.get? (ks ++ D) ≠ some (.link target)
  noUp : ∀ S n names, fs.find .entry root = .ok (.there S .directory) →
    n :: names <:+ dest.names → n.1 = ".." →
    fs.find .entry ⟨dest.anchor, n :: names⟩ ≠ .error .noEntry

section

variable {fs base : FileSystem} {root dest : Path} {S D : Location} {e : Entry} {f : Forest}

lemma spared_of_leaf {fs' : FileSystem} (h : fs.get? S = some e) (h' : fs'.get? S = some e)
    (hne : e ≠ .directory) : Spared fs S fs' := by
  have hnone {fs : FileSystem} (h : fs.get? S = some e) {ks : List String} (hks : ks ≠ []) :
      fs.get? (ks ++ S) = none := by
    by_contra hsome
    obtain ⟨d, hd⟩ := Option.ne_none_iff_exists'.mp hsome
    exact hne (Option.some.inj (h.symm.trans (get?_of_below hd hks)))
  intro ks
  rcases eq_or_ne ks [] with rfl | hks
  · exact h'.trans h.symm
  · rw [hnone h hks, hnone h' hks]

lemma Separate.leaf_passes (h : Separate fs root dest)
    (hroot : fs.find .entry root = .ok (.there S e)) (hne : e ≠ .directory) :
    Passes [⟨root, dest⟩] [⟨root, dest⟩] fs (Spared fs S) (Spared fs S) := by
  have hget := get?_of_there hroot
  have hentry : fs.entryAt root = .ok e := by rw [FileSystem.entryAt, hroot]
  have hvisit := copyVisit_eq (p := ⟨root, dest⟩) hentry
  obtain ⟨fs₁, hfrees, hfills, -⟩ := copyEntry_replaces hne ⟨root, dest⟩ fs
  have hstill : fs₁.get? S = some e := by
    rcases hfrees with rfl | hremove
    · exact hget
    · obtain ⟨l, d, hl, hd, rfl⟩ := removeFile_eq_ok hremove
      rw [get?_erase fs l S (by simpa [get?_of_there hl] using hd), if_neg, hget]
      rintro rfl
      exact h.other S e d hroot hl
  have hspared := spared_of_leaf hget (hfills.extends.get? hstill) hne
  rcases hcopy : copyEntry ⟨root, dest⟩ e fs with ⟨f | ⟨out, names⟩, fs'⟩
  · rw [hcopy] at hspared
    exact passes_of_error (hvisit.trans (mapFailure_of_error hcopy _)) hspared []
  · rw [hcopy] at hspared
    obtain rfl := names_of_leaf hne hcopy
    exact passes_of_leaf (hvisit.trans (mapFailure_of_ok hcopy _)) hspared

lemma Separate.spared (h : Separate fs root dest)
    (hroot : fs.find .entry root = .ok (.there S .directory)) (hD : fs.Resolves dest D) :
    Spared fs S (makeDirectories dest fs).2 := by
  obtain ⟨hSD, -⟩ := h.apart S D (.there (leads_of_entry hroot)) hD
  obtain ⟨hpaves, -⟩ := hD.makeDirectories_paves
  exact fun ks => (hpaves.get? (ks ++ S)).resolve_right fun hnew =>
    hSD ((List.suffix_append ks S).trans hnew.1)

lemma Separate.course (h : Separate fs root dest)
    (hroot : fs.find .entry root = .ok (.there S .directory)) (hD : fs.Resolves dest D)
    (hmake : makeDirectories dest fs = (.ok (), base)) : Course base ⟨root, dest⟩ S D base := by
  have hspared := h.spared hroot hD
  obtain ⟨hpaves, hto⟩ := hD.makeDirectories_paves
  rw [hmake] at hspared hpaves
  refine ⟨(leads_of_entry hroot).extends hpaves.grows, hto base hmake, fun _ => rfl,
    fun ks target hdir => ?_⟩
  rcases hpaves.get? (ks ++ D) with hsame | ⟨-, hnew⟩
  · rw [hsame]
    exact h.link_ne S D ks target hroot hD ((hspared ks).symm.trans hdir)
  · simp [hnew]

lemma abreast_roots (base : FileSystem) (r : Pair) (S D : Location) :
    Abreast base r S D r S D where
  same := ⟨[], rfl, rfl⟩
  source c := c.source
  dest c _ := c.dest
  back _ _ _ hS hD := ⟨hS, hD⟩

lemma Separate.directory_passes (h : Separate fs root dest)
    (hroot : fs.find .entry root = .ok (.there S .directory)) (hf : fs.Holds S (.directory f))
    (hs : f.Sorted) :
    Passes [⟨root, dest⟩] (⟨root, dest⟩ :: f.pairs ⟨root, dest⟩) fs (Spared fs S)
      (Spared fs S) := by
  have hvisit : copyVisit ⟨root, dest⟩ fs = _ := copyVisit_directory hroot
  rcases resolves_or_unchanged fun n names => h.noUp S n names hroot with ⟨D, hD⟩ | hstays
  swap
  · obtain ⟨e, hopen⟩ := openDirectory_of_unchanged hstays root
    exact passes_of_error (hvisit.trans (mapFailure_of_error hopen _)) (fun _ => rfl) _
  obtain ⟨hSD, hDS⟩ := h.apart S D (.there (leads_of_entry hroot)) hD
  have hspared := h.spared hroot hD
  rcases hmake : makeDirectories dest fs with ⟨e | u, base⟩
  · rw [hmake] at hspared
    have hopen : openDirectory root dest fs = (.error e, base) := bind_of_error hmake _
    exact passes_of_error (hvisit.trans (mapFailure_of_error hopen _)) hspared _
  · rw [hmake] at hspared
    have c := h.course hroot hD hmake
    have hbase : base.Holds S (.directory f) := fun ks => (hspared ks.reverse).trans (hf ks)
    have hopen : openDirectory root dest fs = (.ok (dest, f.names), base) :=
      (bind_of_ok hmake _).trans (bind_of_ok (ask_of_ok (list_of_holds c.source hbase hs)) _)
    have hbelow := Forest.passes f (not_suffix_of_apart hSD hDS) (abreast_roots base _ S D) c
      c.dest.get? (fun _ _ hu => hbase.child hu) hs
    have hwhole := hbelow.of_visit (hvisit.trans (mapFailure_of_ok hopen _))
    have hback {fs'} (h' : Spared base S fs') : Spared fs S fs' := fun ks =>
      (h' ks).trans (hspared ks)
    exact hwhole.imp (fun _ h' => hback h'.1.spared) fun _ => hback

/-- A copy to a place apart from its source comes across the source and all below it, once and in
ascending order, up to the entry at which it fails, and leaves all of the source as it was. -/
theorem copyTree_visits (fs : FileSystem) (root dest : Path) (h : Separate fs root dest) :
    (∀ S e, fs.find .entry root = .ok (.there S e) →
      ∃ log pairs, Turns copyVisit [⟨root, dest⟩] fs log (copyTree root dest fs) ∧
        Lists fs ⟨root, dest⟩ S pairs ∧ log.map Turn.pair <+: pairs ∧
        ((copyTree root dest fs).1 = .ok () → log.map Turn.pair = pairs) ∧
        ∀ ks, (copyTree root dest fs).2.get? (ks ++ S) = fs.get? (ks ++ S)) ∧
    ((∀ S e, fs.find .entry root ≠ .ok (.there S e)) →
      Turns copyVisit [⟨root, dest⟩] fs [⟨⟨root, dest⟩, []⟩] (copyTree root dest fs) ∧
        (copyTree root dest fs).1 ≠ .ok () ∧ (copyTree root dest fs).2 = fs) := by
  constructor
  · intro S e hroot
    obtain ⟨t, ht, hs⟩ := exists_tree (get?_of_there hroot)
    obtain rfl : t.entry = e := Option.some.inj (ht.get?_self.symm.trans (get?_of_there hroot))
    have hpasses : Passes [⟨root, dest⟩] (t.pairs ⟨root, dest⟩) fs (Spared fs S) (Spared fs S) := by
      by_cases hdir : t.entry = .directory
      · obtain ⟨f, rfl⟩ := Tree.eq_directory hdir
        exact h.directory_passes hroot ht hs
      · rw [Tree.pairs_of_leaf hdir]
        exact h.leaf_passes hroot hdir
    obtain ⟨log, hlog, hprefix, hall, hspared⟩ := hpasses.turns
    exact ⟨log, _, hlog, lists_of_holds ht hs _, hprefix, hall, hspared⟩
  · intro hnone
    obtain ⟨c, hc⟩ : ∃ c, fs.entryAt root = .error c := by
      cases hentry : fs.entryAt root with
      | error c => exact ⟨c, rfl⟩
      | ok e =>
        obtain ⟨l, hl⟩ := entryAt_eq_ok hentry
        exact absurd hl (hnone l e)
    obtain ⟨e, hv⟩ := copyVisit_of_refused (p := ⟨root, dest⟩) hc
    have hrun : copyTree root dest fs = (.error e, fs) := run_of_error hv []
    rw [hrun]
    exact ⟨.failed hv, by simp, rfl⟩

end

lemma overFiles_separate :
    Separate overFiles ⟨.relative, [⟨"t", rfl⟩]⟩ ⟨.relative, [⟨"o", rfl⟩]⟩ := by
  have hroot : overFiles.find .entry ⟨.relative, [⟨"t", rfl⟩]⟩ = .ok (.there ["t"] .directory) :=
    rfl
  have hdest : overFiles.find .entry ⟨.relative, [⟨"o", rfl⟩]⟩ = .ok (.there ["o"] .directory) :=
    rfl
  have hlay : Layable overFiles ["t"] ["o"] :=
    layable_of_entries (by decide) (by decide) (by decide +kernel) (by decide +kernel)
  refine ⟨fun S D hS hD => ?_, fun S e d hS hD => ?_, fun S D ks target hS hD => ?_,
    fun S n names _ hn hup => ?_⟩
  · obtain rfl := hS.eq_of_leads (leads_of_entry hroot)
    obtain rfl := hD.eq_of_leads (leads_of_entry hdest)
    exact ⟨hlay.apart, hlay.apart'⟩
  · have hspot := (Spot.there.inj (Except.ok.inj (hroot.symm.trans hS))).1
    have hspot' := (Spot.there.inj (Except.ok.inj (hdest.symm.trans hD))).1
    exact absurd (hspot.trans hspot'.symm) (by decide)
  · cases hroot.symm.trans hS
    obtain rfl := hD.eq_of_leads (leads_of_entry hdest)
    exact hlay.link_ne ks target
  · rcases List.suffix_cons_iff.mp hn with heq | hnil
    · obtain rfl := (List.cons.inj heq).1
      exact absurd hup (by decide)
    · cases List.suffix_nil.mp hnil

theorem copyTree_visits_file :
    Separate overFiles ⟨.relative, [⟨"t", rfl⟩]⟩ ⟨.relative, [⟨"o", rfl⟩]⟩ ∧
    ∃ log, Turns copyVisit [⟨⟨.relative, [⟨"t", rfl⟩]⟩, ⟨.relative, [⟨"o", rfl⟩]⟩⟩] overFiles log
        (copyTree ⟨.relative, [⟨"t", rfl⟩]⟩ ⟨.relative, [⟨"o", rfl⟩]⟩ overFiles) ∧
      ⟨⟨.relative, [⟨"a", rfl⟩, ⟨"t", rfl⟩]⟩, ⟨.relative, [⟨"a", rfl⟩, ⟨"o", rfl⟩]⟩⟩ ∈
        log.map Turn.pair ∧
      (copyTree ⟨.relative, [⟨"t", rfl⟩]⟩ ⟨.relative, [⟨"o", rfl⟩]⟩ overFiles).2.get? ["a", "t"] =
        some (.file "new".toUTF8 0o644) := by
  have hrun : ((runWithin copyVisit 2 [⟨⟨.relative, [⟨"t", rfl⟩]⟩, ⟨.relative, [⟨"o", rfl⟩]⟩⟩]
      overFiles).map Prod.fst) = some (.ok ()) := by
    decide +kernel
  obtain ⟨r, hr, hok⟩ := Option.map_eq_some_iff.mp hrun
  have hdone : (copyTree ⟨.relative, [⟨"t", rfl⟩]⟩ ⟨.relative, [⟨"o", rfl⟩]⟩ overFiles).1 =
      .ok () := by
    rw [copyTree, run_of_runWithin hr]
    exact hok
  obtain ⟨log, pairs, hlog, hlists, -, hall, hspared⟩ := (copyTree_visits overFiles
    ⟨.relative, [⟨"t", rfl⟩]⟩ ⟨.relative, [⟨"o", rfl⟩]⟩ overFiles_separate).1 ["t"] .directory rfl
  refine ⟨overFiles_separate, log, hlog, ?_, (hspared ["a"]).trans (by decide +kernel)⟩
  rw [hall hdone]
  exact (hlists.mem _).mpr ⟨[⟨"a", rfl⟩], rfl, by decide +kernel⟩

theorem copyTree_visits_new :
    bareFiles.canonical ⟨.relative, [⟨"t", rfl⟩]⟩ = ⟨.root, [⟨"t", rfl⟩]⟩ ∧
    bareFiles.canonical
      ⟨.relative, [⟨"o", rfl⟩, ⟨"..", rfl⟩, ⟨"..", rfl⟩, ⟨"x", rfl⟩, ⟨"t", rfl⟩]⟩ =
        ⟨.root, [⟨"o", rfl⟩]⟩ ∧
    bareFiles.get? ["o"] = none ∧ bareFiles.get? ["x", "t"] = none ∧
    (copyTree ⟨.relative, [⟨"t", rfl⟩]⟩
      ⟨.relative, [⟨"o", rfl⟩, ⟨"..", rfl⟩, ⟨"..", rfl⟩, ⟨"x", rfl⟩, ⟨"t", rfl⟩]⟩
      bareFiles).2.get? ["x", "t"] = some .directory ∧
    (copyTree ⟨.relative, [⟨"t", rfl⟩]⟩
      ⟨.relative, [⟨"o", rfl⟩, ⟨"..", rfl⟩, ⟨"..", rfl⟩, ⟨"x", rfl⟩, ⟨"t", rfl⟩]⟩
      bareFiles).2.get? ["x", "o"] = some .directory := by
  have hrun : ((runWithin copyVisit 3 [⟨⟨.relative, [⟨"t", rfl⟩]⟩,
      ⟨.relative, [⟨"o", rfl⟩, ⟨"..", rfl⟩, ⟨"..", rfl⟩, ⟨"x", rfl⟩, ⟨"t", rfl⟩]⟩⟩] bareFiles).map
      fun r => (r.2.get? ["x", "t"], r.2.get? ["x", "o"])) =
        some (some .directory, some .directory) := by
    decide +kernel
  obtain ⟨r, hr, hget⟩ := Option.map_eq_some_iff.mp hrun
  rw [copyTree, run_of_runWithin hr]
  exact ⟨by decide +kernel, by decide +kernel, by decide +kernel, by decide +kernel,
    congrArg Prod.fst hget, congrArg Prod.snd hget⟩

end Walk

end Scaffold
