import Scaffold.Proofs.Walk.Directories
import Scaffold.Proofs.Walk.Fresh

/-! A copy lays the source over what is at the destination: files and links take the place of files
and links, directories are joined, and all else stays. -/

namespace Scaffold

namespace FileSystem

/-- A tree has come over what was at the location, and nothing else has changed. -/
structure Overlaid (fs fs' : FileSystem) (loc : Location) (t : Tree) : Prop where
  get? : ∀ ks : List String,
    fs'.get? (ks.reverse ++ loc) = (t.entryAt ks).or (fs.get? (ks.reverse ++ loc))
  outside : fs.AgreesOutside fs' loc

section

variable {fs fs₁ fs₂ : FileSystem} {p : Path} {loc l : Location} {n : Name} {t : Tree}
  {f rest : Forest} {e : Entry}

lemma overlaid_nil (h : fs.get? loc = some .directory) :
    fs.Overlaid fs loc (.directory .nil) := by
  refine ⟨fun ks => ?_, .refl fs loc⟩
  cases ks with
  | nil => exact h
  | cons k ks => rfl

lemma Overlaid.cons (hs : (Forest.cons n t rest).Sorted) (h : fs.Overlaid fs₁ (n.1 :: loc) t)
    (h' : fs₁.Overlaid fs₂ loc (.directory rest)) :
    fs.Overlaid fs₂ loc (.directory (.cons n t rest)) := by
  refine ⟨fun ks => ?_, (h.outside.widen (List.suffix_cons n.1 loc)).trans h'.outside⟩
  cases ks with
  | nil => exact h'.get? []
  | cons k ks =>
    have hrest := h'.get? (k :: ks)
    rw [Tree.entryAt, List.reverse_cons, List.append_assoc] at hrest ⊢
    rw [hrest, Forest.find?]
    by_cases hk : n.1 = k
    · subst hk
      rw [Forest.find?_of_not_mem hs.not_mem, if_pos rfl]
      exact h.get? ks
    · rw [if_neg hk]
      exact congrArg _ (h.outside.get? _ (not_suffix_sibling hk ks))

lemma Place.overlaid (h : fs.Place p loc) (hd : fs.get? loc ≠ some .directory)
    (ht : t.entry ≠ .directory) : fs.Overlaid (fs.replace loc t.entry) loc t := by
  have hget := h.get?_replace hd t.entry
  refine ⟨fun ks => ?_, agrees_replace fs loc t.entry⟩
  cases ks with
  | nil => exact hget.trans (by rw [t.entryAt_nil, Option.some_or])
  | cons k ks =>
    rw [Tree.entryAt_of_leaf ht, List.reverse_cons, List.append_assoc]
    have hnew : (fs.replace loc t.entry).get? (ks.reverse ++ k :: loc) = none :=
      get?_below (by simpa [hget] using ht) k ks
    exact hnew.trans (get?_below hd k ks).symm

lemma get?_set_ne (fs : FileSystem) (e : Entry) (h : l ≠ loc) :
    (fs.set loc e).get? l = fs.get? l := by
  by_cases hc : fs.canHold loc = true ∧ fs.get? loc ≠ some .directory
  · rw [get?_set fs loc l e hc.1 hc.2, if_neg h]
  · rw [set, dif_neg hc]

lemma Overlaid.of_made (h : (fs.set loc .directory).Overlaid fs₂ loc (.directory f)) :
    fs.Overlaid fs₂ loc (.directory f) := by
  refine ⟨fun ks => ?_, (agrees_set fs loc .directory).trans h.outside⟩
  have hks := h.get? ks
  cases ks with
  | nil => exact hks
  | cons k ks =>
    rw [hks, get?_set_ne]
    rw [List.reverse_cons, List.append_assoc]
    exact fun he => not_suffix_parent k loc ⟨ks.reverse, he⟩

end

end FileSystem

namespace Walk

open Attempt FileAction FileSystem

def conflicts : Entry → Option Entry → Bool
  | .file .., some .directory | .link _, some .directory | .directory, some (.file ..) => true
  | _, _ => false

def Written (fs : FileSystem) (S D l : Location) : Prop :=
  ∃ ks, l = ks ++ D ∧ (fs.get? (ks ++ S)).isSome = true ∧ fs.get? (ks ++ D) ≠ some .directory

/-- Two directories apart of each other, without pipes, and without a link in the second where the
first has a directory. -/
structure Layable (fs : FileSystem) (S D : Location) : Prop where
  apart : ¬ S <:+ D
  apart' : ¬ D <:+ S
  source_ne : ∀ ks, fs.get? (ks ++ S) ≠ some .pipe
  dest_ne : ∀ ks, fs.get? (ks ++ D) ≠ some .pipe
  link_ne : ∀ ks target, fs.get? (ks ++ S) = some .directory →
    fs.get? (ks ++ D) ≠ some (.link target)

def Firm (fs : FileSystem) (p : Pair) (S D : Location) : Prop :=
  ∃ part : FileSystem, part.Extends fs ∧ (∀ l, Written fs S D l → part.get? l = none) ∧
    part.Leads p.source S ∧ part.Leads p.dest D

def Short (p : Pair) : Prop :=
  p.source.byteLength ≤ pathLimit ∧ p.dest.byteLength ≤ pathLimit

def below (p : Pair) (names : List Name) : Pair :=
  ⟨sourceAt p.source names, sourceAt p.dest names⟩

def Lands (fs : FileSystem) (p : Pair) (S D : Location) : Prop :=
  ∀ (names : List Name) (e : Entry), fs.get? (names.map Subtype.val ++ S) = some e →
    Short (below p names) ∧ ¬ conflicts e (fs.get? (names.map Subtype.val ++ D))

section

variable {fs : FileSystem} {p : Pair} {S D : Location} {e : Entry} {f : Forest}

lemma conflicts_iff_of_leaf (hd : e ≠ .directory) (hp : e ≠ .pipe) (old : Option Entry) :
    conflicts e old ↔ old = some .directory := by
  rcases old with _ | (_ | _ | _ | _) <;> cases e <;> simp_all [conflicts]

lemma conflicts_directory_iff (old : Option Entry) :
    conflicts .directory old ↔ ∃ bytes mode, old = some (.file bytes mode) := by
  rcases old with _ | (_ | _ | _ | _) <;> simp [conflicts]

lemma below_concat (p : Pair) (names : List Name) (n : Name) :
    below p (names ++ [n]) = below (p.child p.dest n) names := by
  simp [below, sourceAt, Pair.child, Path.child]

lemma lands_self (h : Lands fs p S D) (he : fs.get? S = some e) :
    Short p ∧ ¬ conflicts e (fs.get? D) :=
  h [] e he

lemma lands_of_leaf (he : fs.get? S = some e) (hd : e ≠ .directory) :
    Lands fs p S D ↔ Short p ∧ ¬ conflicts e (fs.get? D) := by
  refine ⟨fun h => lands_self h he, fun h names d hnames => ?_⟩
  cases names with
  | nil =>
    obtain rfl : e = d := Option.some.inj (he.symm.trans hnames)
    exact h
  | cons n names =>
    have hdir := get?_of_below hnames (by simp)
    exact absurd (Option.some.inj (he.symm.trans hdir)) hd

lemma lands_of_directory (hf : fs.Holds S (.directory f)) :
    Lands fs p S D ↔ (Short p ∧ ¬ conflicts .directory (fs.get? D)) ∧
      ∀ n ∈ f.names, Lands fs (p.child p.dest n) (n.1 :: S) (n.1 :: D) := by
  constructor
  · refine fun h => ⟨lands_self h hf.get?_self, fun n _ names e he => ?_⟩
    have hwhole := h (names ++ [n]) e (by simpa using he)
    rw [below_concat] at hwhole
    simpa using hwhole
  · rintro ⟨hself, hbelow⟩ names e he
    rcases List.eq_nil_or_concat names with rfl | ⟨names, n, rfl⟩
    · obtain rfl : Entry.directory = e := Option.some.inj (hf.get?_self.symm.trans he)
      exact hself
    · rw [List.concat_eq_append] at he ⊢
      have he' : fs.get? (names.map Subtype.val ++ n.1 :: S) = some e := by simpa using he
      have hn : n ∈ f.names := by
        have hthere : (fs.get? (n.1 :: S)).isSome = true := by
          cases names with
          | nil => exact Option.isSome_of_eq_some he'
          | cons m names => exact Option.isSome_of_eq_some (get?_of_below he' (by simp))
        rw [hf.get?_child, Option.isSome_map, Forest.find?_isSome_iff] at hthere
        obtain ⟨m, hm, hmn⟩ := hthere
        exact Subtype.ext hmn ▸ hm
      have hland := hbelow n hn names e he'
      rw [← below_concat] at hland
      simpa using hland

end

/-! What holds while a copy is on its way: nothing is new but at the destination, and the part of
the file system in which the paths are found is still there. With it every path below leads where
it led at first, so that each entry can be copied without regard to the others. -/

structure Ground (base part : FileSystem) (S D : Location) : Prop extends Layable base S D where
  grows : part.Extends base
  bare : ∀ l, Written base S D l → part.get? l = none

structure Stage (base part : FileSystem) (D : Location) (fs : FileSystem) : Prop where
  grows : part.Extends fs
  outside : base.AgreesOutside fs D

structure Facing (base part : FileSystem) (S D : Location) (p : Pair) (s d : Location) : Prop where
  same : ∃ ks, s = ks ++ S ∧ d = ks ++ D
  source : ∀ {fs}, Stage base part D fs → fs.Leads p.source s
  dest : ∀ {fs}, Stage base part D fs → fs.get? d = some .directory → fs.Leads p.dest d

section

variable {base part fs fs' : FileSystem} {S D s d l : Location} {p : Pair} {n : Name} {e : Entry}

lemma Layable.not_suffix (h : Layable base S D) (ks : List String) : ¬ D <:+ ks ++ S :=
  not_suffix_of_apart h.apart h.apart' ks

lemma Ground.get?_below (g : Ground base part S D) (h : Written base S D l) (ks : List String) :
    part.get? (ks ++ l) = none := by
  cases ks with
  | nil => exact g.bare l h
  | cons k ks =>
    by_contra hne
    obtain ⟨e, he⟩ := Option.ne_none_iff_exists'.mp hne
    obtain ⟨xs, rfl, -, hd⟩ := h
    exact hd (get?_of_below (g.grows.get? he) (by simp))

lemma Stage.next (g : Ground base part S D) (h : Stage base part D fs) (hw : Written base S D l)
    (ha : fs.AgreesOutside fs' l) : Stage base part D fs' := by
  refine ⟨⟨ha.workDir.trans h.grows.workDir, fun {k e} hk => ?_⟩, h.outside.trans (ha.widen ?_)⟩
  · rw [ha.get? k, h.grows.get? hk]
    rintro ⟨ks, rfl⟩
    rw [g.get?_below hw] at hk
    cases hk
  · obtain ⟨ks, rfl, -, -⟩ := hw
    exact List.suffix_append ks D

lemma Stage.get?_source (g : Ground base part S D) (h : Stage base part D fs) (ks : List String) :
    fs.get? (ks ++ S) = base.get? (ks ++ S) :=
  h.outside.get? _ (g.not_suffix ks)

lemma Facing.denotes_source (a : Facing base part S D p s d) (g : Ground base part S D)
    (h : Stage base part D fs) (he : base.get? (n.1 :: s) = some e)
    (hl : (p.source.child n).byteLength ≤ pathLimit) :
    fs.Denotes (p.source.child n) (n.1 :: s) ∧ fs.get? (n.1 :: s) = some e := by
  refine ⟨(a.source h).denotes (get?_parent he).1 hl, ?_⟩
  obtain ⟨ks, rfl, -⟩ := a.same
  exact (h.get?_source g (n.1 :: ks)).trans he

lemma Facing.child (a : Facing base part S D p s d) (g : Ground base part S D)
    (he : base.get? (n.1 :: s) = some .directory) (hp : Short (p.child p.dest n)) :
    Facing base part S D (p.child p.dest n) (n.1 :: s) (n.1 :: d) := by
  refine ⟨?_, fun h => ?_, fun h hd => ?_⟩
  · obtain ⟨ks, rfl, rfl⟩ := a.same
    exact ⟨n.1 :: ks, rfl, rfl⟩
  · obtain ⟨hden, hdir⟩ := a.denotes_source g h he hp.1
    exact hden.leads hdir
  · obtain ⟨hn, hparent⟩ := get?_parent hd
    exact ((a.dest h hparent).denotes hn hp.2).leads hd

lemma Facing.written (a : Facing base part S D p s d) (he : base.get? (n.1 :: s) = some e)
    (hd : base.get? (n.1 :: d) ≠ some .directory) : Written base S D (n.1 :: d) := by
  obtain ⟨ks, rfl, rfl⟩ := a.same
  exact ⟨n.1 :: ks, rfl, Option.isSome_of_eq_some he, hd⟩

end

def Settles (work : List Pair) (fs : FileSystem) (can : Prop) (after : FileSystem → Prop) : Prop :=
  (can → ∃ fs', after fs' ∧ ∀ rest, run copyVisit (work ++ rest) fs = run copyVisit rest fs') ∧
  (¬ can → ∀ rest, Fails (run copyVisit (work ++ rest) fs))

section

variable {fs fs₁ : FileSystem} {p : Pair} {work : List Pair} {out : Path} {names : List Name}
  {can can' : Prop} {after after' : FileSystem → Prop}

lemma settles_nil (hc : can) (h : after fs) : Settles [] fs can after :=
  ⟨fun _ => ⟨fs, h, fun _ => rfl⟩, fun hn => absurd hc hn⟩

lemma settles_of_fails (hv : Fails (copyVisit p fs)) (hc : ¬ can) : Settles [p] fs can after :=
  ⟨fun h => absurd h hc, fun _ _ => fails_run hv⟩

lemma Settles.imp (h : Settles work fs can after) (hc : can' ↔ can)
    (ha : ∀ fs', after fs' → after' fs') : Settles work fs can' after' := by
  refine ⟨fun hcan => ?_, fun hcan => h.2 fun hc' => hcan (hc.mpr hc')⟩
  obtain ⟨fs', hfs', hrun⟩ := h.1 (hc.mp hcan)
  exact ⟨fs', ha fs' hfs', hrun⟩

lemma Settles.of_visit (h : Settles (names.map (p.child out)) fs₁ can after)
    (hv : copyVisit p fs = (.ok (out, names), fs₁)) (hl : p.source.byteLength ≤ pathLimit) :
    Settles [p] fs can after := by
  have hfront (rest : List Pair) : run copyVisit ([p] ++ rest) fs =
      run copyVisit (names.map (p.child out) ++ rest) fs₁ := run_of_ok hv hl
  refine ⟨fun hc => ?_, fun hc rest => ?_⟩
  · obtain ⟨fs', ha, hrun⟩ := h.1 hc
    exact ⟨fs', ha, fun rest => (hfront rest).trans (hrun rest)⟩
  · rw [hfront]
    exact h.2 hc rest

lemma Settles.cons (h : Settles [p] fs can after)
    (hw : ∀ fs₁, after fs₁ → Settles work fs₁ can' after') :
    Settles (p :: work) fs (can ∧ can') after' := by
  by_cases hc : can
  · obtain ⟨fs₁, ha, hrun⟩ := h.1 hc
    have hfront (rest : List Pair) :
        run copyVisit (p :: work ++ rest) fs = run copyVisit (work ++ rest) fs₁ :=
      hrun (work ++ rest)
    refine ⟨fun hcan => ?_, fun hcan rest => ?_⟩
    · obtain ⟨fs', ha', hrun'⟩ := (hw fs₁ ha).1 hcan.2
      exact ⟨fs', ha', fun rest => (hfront rest).trans (hrun' rest)⟩
    · rw [hfront]
      exact (hw fs₁ ha).2 (fun hc' => hcan ⟨hc, hc'⟩) rest
  · exact ⟨fun hcan => absurd hcan.1 hc, fun _ rest => h.2 hc (work ++ rest)⟩

end

section

variable {base part fs : FileSystem} {S D s d : Location} {p : Pair} {n : Name} {e : Entry}
  {t : Tree} {f : Forest}
  (a : Facing base part S D p s d) (g : Ground base part S D) (h : Stage base part D fs)

include a g h

lemma Facing.visit (he : base.get? (n.1 :: s) = some e)
    (hl : (p.source.child n).byteLength ≤ pathLimit) :
    copyVisit (p.child p.dest n) fs =
      mapFailure (blameCopy (p.child p.dest n)) (copyEntry (p.child p.dest n) e) fs := by
  obtain ⟨hden, hget⟩ := a.denotes_source g h he hl
  exact copyVisit_eq (p := p.child p.dest n) (hden.entryAt hget)

lemma Facing.fails_visit (hd : fs.get? d = some .directory) (he : base.get? (n.1 :: s) = some e)
    (hcopy : Short (p.child p.dest n) → Fails (copyEntry (p.child p.dest n) e fs)) :
    Fails (copyVisit (p.child p.dest n) fs) := by
  have hup : n.1 ≠ ".." := ((isEntryName_iff n).mp (get?_parent he).1).1
  by_cases hs : (p.source.child n).byteLength ≤ pathLimit
  · rw [a.visit g h he hs]
    apply fails_mapFailure
    by_cases hl : (p.dest.child n).byteLength ≤ pathLimit
    · exact hcopy ⟨hs, hl⟩
    · obtain ⟨r, hr, hq⟩ := (a.dest h hd).refused hup fun hfit => hl hfit.2
      exact fails_copyEntry_of_refused hr hq e
  · obtain ⟨r, -, hq⟩ := (a.source h).refused hup fun hfit => hs hfit.2
    apply fails_mapFailure
    apply fails_bind_left
    rw [FileAction.ask, FileSystem.entryAt, Pair.child, hq]
    exact ⟨_, rfl⟩

lemma Facing.leaf_settles (hd : fs.get? d = some .directory)
    (he : base.get? (n.1 :: s) = some t.entry) (ht : t.entry ≠ .directory)
    (hsame : fs.get? (n.1 :: d) = base.get? (n.1 :: d)) :
    Settles [p.child p.dest n] fs (Lands base (p.child p.dest n) (n.1 :: s) (n.1 :: d))
      fun fs' => Stage base part D fs' ∧ fs.Overlaid fs' (n.1 :: d) t := by
  have hn := (get?_parent he).1
  have hpipe : t.entry ≠ .pipe ∧ fs.get? (n.1 :: d) ≠ some .pipe := by
    obtain ⟨ks, rfl, rfl⟩ := a.same
    refine ⟨fun hp => g.source_ne (n.1 :: ks) (hp ▸ he), fun hp => ?_⟩
    exact g.dest_ne (n.1 :: ks) (hsame.symm.trans hp)
  have hland := lands_of_leaf (p := p.child p.dest n) (D := n.1 :: d) he ht
  rw [conflicts_iff_of_leaf ht hpipe.1] at hland
  by_cases hcan : Lands base (p.child p.dest n) (n.1 :: s) (n.1 :: d)
  · obtain ⟨hshort, hfree⟩ := hland.mp hcan
    -- Whatever is done at the place itself on the way, both paths are found as before.
    have hnext {fs'} (ha : fs.AgreesOutside fs' (n.1 :: d)) : Stage base part D fs' :=
      h.next g (a.written he hfree) ha
    have hplace : fs.Place (p.dest.child n) (n.1 :: d) := by
      refine ⟨(canHold_iff _ _ _).mpr ⟨hn, hd⟩, fun fs' ha => ?_⟩
      have hd' := (ha.get? d (not_suffix_parent n.1 d)).trans hd
      exact (a.dest (hnext ha) hd').denotes hn hshort.2
    have hshows : fs.Shows (n.1 :: d) (p.source.child n) t.entry := fun fs' ha =>
      ⟨n.1 :: s, a.denotes_source g (hnext ha) he hshort.1⟩
    have hcopy := copyEntry_of_leaf hplace hshows ht hpipe.1 (hsame ▸ hfree) hpipe.2
    have hvisit := (a.visit g h he hshort.1).trans (mapFailure_of_ok hcopy _)
    have hdone : Settles (([] : List Name).map ((p.child p.dest n).child (p.dest.child n)))
        (fs.replace (n.1 :: d) t.entry) (Lands base (p.child p.dest n) (n.1 :: s) (n.1 :: d))
        fun fs' => Stage base part D fs' ∧ fs.Overlaid fs' (n.1 :: d) t :=
      settles_nil hcan ⟨hnext (agrees_replace fs _ _), hplace.overlaid (hsame ▸ hfree) ht⟩
    exact hdone.of_visit hvisit hshort.1
  · refine settles_of_fails (a.fails_visit g h hd he fun hshort => ?_) hcan
    have hover : base.get? (n.1 :: d) = some .directory := by
      by_contra hfree
      exact hcan (hland.mpr ⟨hshort, hfree⟩)
    exact fails_copyEntry_over ((a.dest h hd).denotes hn hshort.2) ht (hsame.trans hover)

lemma Facing.list (hf : base.Holds s (.directory f)) (hs : f.Sorted) :
    fs.list p.source = .ok f.names := by
  refine list_of_holds (a.source h) (fun ks => ?_) hs
  rw [← hf ks]
  obtain ⟨xs, rfl, -⟩ := a.same
  rw [← List.append_assoc]
  exact h.get?_source g (ks.reverse ++ xs)

lemma Facing.opened (hd : fs.get? d = some .directory)
    (hf : base.Holds (n.1 :: s) (.directory f)) (hs : f.Sorted)
    (hsame : ∀ ks, fs.get? (ks ++ n.1 :: d) = base.get? (ks ++ n.1 :: d))
    (hp : Short (p.child p.dest n)) (hfree : ¬ conflicts .directory (base.get? (n.1 :: d))) :
    ∃ fs₁, copyEntry (p.child p.dest n) .directory fs = (.ok (p.dest.child n, f.names), fs₁) ∧
      Stage base part D fs₁ ∧ fs₁.get? (n.1 :: d) = some .directory ∧
      (∀ m ks, fs₁.get? (ks ++ m :: n.1 :: d) = base.get? (ks ++ m :: n.1 :: d)) ∧
      ∀ fs', fs₁.Overlaid fs' (n.1 :: d) (.directory f) →
        fs.Overlaid fs' (n.1 :: d) (.directory f) := by
  have hn := (get?_parent hf.get?_self).1
  have hden := (a.dest h hd).denotes hn hp.2
  have hbelow (m : String) (ks : List String) :
      fs.get? (ks ++ m :: n.1 :: d) = base.get? (ks ++ m :: n.1 :: d) := by
    simpa using hsame (ks ++ [m])
  have hopen {fs₁} (hmake : makeDirectories (p.dest.child n) fs = (.ok (), fs₁))
      (h₁ : Stage base part D fs₁) :
      copyEntry (p.child p.dest n) .directory fs = (.ok (p.dest.child n, f.names), fs₁) := by
    have hlist := (a.child g hf.get?_self hp).list g h₁ hf hs
    exact (bind_of_ok hmake _).trans (bind_of_ok (ask_of_ok hlist) _)
  have hold : fs.get? (n.1 :: d) = base.get? (n.1 :: d) := hsame []
  cases hb : base.get? (n.1 :: d) with
  | none =>
    have hmake := makeDirectories_of_none (hden.find_vacant (hold.trans hb) .entry)
    have hstage := h.next g (a.written hf.get?_self (by simp [hb]))
      (agrees_set fs (n.1 :: d) .directory)
    refine ⟨_, hopen hmake hstage, hstage, ?_, fun m ks => ?_, fun _ => Overlaid.of_made⟩
    · exact get?_set_self ((canHold_iff _ _ _).mpr ⟨hn, hd⟩) (by simp [hold, hb])
    · rw [get?_set_ne, hbelow]
      exact fun he => not_suffix_parent m (n.1 :: d) ⟨ks, he⟩
  | some e =>
    cases e with
    | directory =>
      have hdir := hold.trans hb
      exact ⟨fs, hopen (makeDirectories_of_directory hden hdir) h, h, hdir, hbelow, fun _ => id⟩
    | file bytes mode =>
      rw [hb] at hfree
      exact absurd rfl hfree
    | link target =>
      obtain ⟨ks, rfl, rfl⟩ := a.same
      exact absurd hb (g.link_ne (n.1 :: ks) target hf.get?_self)
    | pipe =>
      obtain ⟨ks, rfl, rfl⟩ := a.same
      exact absurd hb (g.dest_ne (n.1 :: ks))

end

end Walk

open Walk FileSystem Attempt

/-! The induction is on the source. Where an entry goes, the destination is still as it was. -/

mutual

lemma Tree.overlay_settles (t : Tree) {base part fs : FileSystem} {S D s d : Location} {p : Pair}
    {n : Name} (a : Facing base part S D p s d) (g : Ground base part S D)
    (h : Stage base part D fs) (hd : fs.get? d = some .directory)
    (ht : base.Holds (n.1 :: s) t) (hs : t.Sorted)
    (hsame : ∀ ks, fs.get? (ks ++ n.1 :: d) = base.get? (ks ++ n.1 :: d)) :
    Settles [p.child p.dest n] fs (Lands base (p.child p.dest n) (n.1 :: s) (n.1 :: d))
      fun fs' => Stage base part D fs' ∧ fs.Overlaid fs' (n.1 :: d) t := by
  by_cases hdir : t.entry = .directory
  · obtain ⟨f, rfl⟩ := Tree.eq_directory hdir
    have hland := lands_of_directory (p := p.child p.dest n) (D := n.1 :: d) ht
    by_cases hself : Short (p.child p.dest n) ∧ ¬ conflicts .directory (base.get? (n.1 :: d))
    · obtain ⟨fs₁, hopen, h₁, hd₁, hsame₁, hlay⟩ := a.opened g h hd ht hs hsame hself.1 hself.2
      have hvisit := (a.visit g h ht.get?_self hself.1.1).trans (mapFailure_of_ok hopen _)
      have hbelow := Forest.overlay_settles f (a.child g ht.get?_self hself.1) g h₁ hd₁
        (fun _ _ hu => ht.child hu) hs fun m _ => hsame₁ m.1
      refine (hbelow.of_visit hvisit hself.1.1).imp ?_ fun fs' h' => ⟨h'.1, hlay fs' h'.2⟩
      rw [hland]
      exact and_iff_right hself
    · refine settles_of_fails (a.fails_visit g h hd ht.get?_self fun hshort => ?_)
        fun hcan => hself (hland.mp hcan).1
      have hconflict : conflicts .directory (base.get? (n.1 :: d)) := by
        by_contra hfree
        exact hself ⟨hshort, hfree⟩
      obtain ⟨bytes, mode, hfile⟩ := (conflicts_directory_iff _).mp hconflict
      have hden := (a.dest h hd).denotes (get?_parent ht.get?_self).1 hshort.2
      exact fails_openDirectory_over hden ((hsame []).trans hfile)
  · exact a.leaf_settles g h hd ht.get?_self hdir (hsame [])

lemma Forest.overlay_settles (f : Forest) {base part fs : FileSystem} {S D s d : Location}
    {p : Pair} (a : Facing base part S D p s d) (g : Ground base part S D)
    (h : Stage base part D fs) (hd : fs.get? d = some .directory)
    (hf : ∀ k u, f.find? k = some u → base.Holds (k :: s) u) (hs : f.Sorted)
    (hsame : ∀ m ∈ f.names, ∀ ks, fs.get? (ks ++ m.1 :: d) = base.get? (ks ++ m.1 :: d)) :
    Settles (f.names.map (p.child p.dest)) fs
      (∀ m ∈ f.names, Lands base (p.child p.dest m) (m.1 :: s) (m.1 :: d))
      fun fs' => Stage base part D fs' ∧ fs.Overlaid fs' d (.directory f) := by
  cases f with
  | nil => exact settles_nil (fun _ hm => nomatch hm) ⟨h, overlaid_nil hd⟩
  | cons n t rest =>
    have hfirst := Tree.overlay_settles t a g h hd (hf n.1 t (Forest.find?_cons_self n t rest))
      hs.2.1 (hsame n List.mem_cons_self)
    refine (hfirst.cons fun fs₁ h₁ => ?_).imp List.forall_mem_cons fun _ => id
    have hd₁ := (h₁.2.outside.get? d (not_suffix_parent n.1 d)).trans hd
    have hrest := Forest.overlay_settles rest a g h₁.1 hd₁
      (fun k u hu => hf k u (hs.find?_rest hu)) hs.2.2 fun m hm ks => ?_
    · exact hrest.imp .rfl fun _ h' => ⟨h'.1, h₁.2.cons hs h'.2⟩
    -- The rest has other names, so nothing has happened yet where it goes.
    · have hne : n.1 ≠ m.1 := fun he => hs.not_mem (Subtype.ext he ▸ hm)
      have hkeep := h₁.2.outside.get? _ (not_suffix_sibling hne ks.reverse)
      rw [List.reverse_reverse] at hkeep
      exact hkeep.trans (hsame m (List.mem_cons_of_mem n hm) ks)

end

namespace Walk

open FileAction

section

variable {fs base part : FileSystem} {root dest : Path} {S D : Location} {p : Pair}

lemma copyTree_settles (hsource : fs.find .entry root = .ok (.there S .directory))
    (hmake : makeDirectories dest fs = (.ok (), base)) (g : Ground base part S D)
    (hroot : part.Leads root S) (hdest : part.Leads dest D) :
    ∃ f, base.Holds S (.directory f) ∧ Settles [⟨root, dest⟩] fs (Lands base ⟨root, dest⟩ S D)
      fun fs' => base.Overlaid fs' D (.directory f) := by
  obtain ⟨f, hf, hs⟩ := exists_forest_of_directory (hroot.extends g.grows).get?
  have a : Facing base part S D ⟨root, dest⟩ S D :=
    ⟨⟨[], rfl, rfl⟩, fun h => hroot.extends h.grows, fun h _ => hdest.extends h.grows⟩
  have h : Stage base part D base := ⟨g.grows, .refl base D⟩
  have hd : base.get? D = some .directory := (hdest.extends g.grows).get?
  have hopen : openDirectory root dest fs = (.ok (dest, f.names), base) :=
    (bind_of_ok hmake _).trans (bind_of_ok (ask_of_ok (a.list g h hf hs)) _)
  have hvisit := (copyVisit_directory hsource).trans (mapFailure_of_ok hopen _)
  have hshort : Short ⟨root, dest⟩ := ⟨(find_eq_walk hroot).2.1, (find_eq_walk hdest).2.1⟩
  have hbelow := f.overlay_settles a g h hd (fun _ _ hu => hf.child hu) hs fun _ _ _ => rfl
  refine ⟨f, hf, (hbelow.of_visit hvisit hshort.1).imp ?_ fun _ h' => h'.2⟩
  rw [lands_of_directory hf]
  exact and_iff_right ⟨hshort, by simp [hd, conflicts]⟩

lemma copyTree_lays (hsource : fs.find .entry root = .ok (.there S .directory))
    (hmake : makeDirectories dest fs = (.ok (), base)) (g : Ground base part S D)
    (hroot : part.Leads root S) (hdest : part.Leads dest D) :
    ((copyTree root dest fs).1 = .ok () ↔ Lands base ⟨root, dest⟩ S D) ∧
    ((copyTree root dest fs).1 = .ok () → base.AgreesOutside (copyTree root dest fs).2 D ∧
      ∀ ks, (copyTree root dest fs).2.get? (ks ++ D) =
        (base.get? (ks ++ S)).or (base.get? (ks ++ D))) := by
  obtain ⟨f, hf, hcan, hcannot⟩ := copyTree_settles hsource hmake g hroot hdest
  by_cases hlands : Lands base ⟨root, dest⟩ S D
  · obtain ⟨fs', hover, hrun⟩ := hcan hlands
    have hdone : copyTree root dest fs = (.ok (), fs') := (hrun []).trans (run_nil _ _)
    rw [hdone]
    refine ⟨iff_of_true rfl hlands, fun _ => ⟨hover.outside, fun ks => ?_⟩⟩
    have hks := hover.get? ks.reverse
    rwa [← hf, List.reverse_reverse] at hks
  · obtain ⟨e, he⟩ : Fails (copyTree root dest fs) := hcannot hlands []
    rw [he]
    exact ⟨iff_of_false (fun h => nomatch h) hlands, fun h => nomatch h⟩

lemma ground_openTo (ho : fs.Opened (fs.openTo D) D) (h : Layable fs S D) :
    Ground (fs.openTo D) (fs.openTo D) S D := by
  have hsource (ks : List String) : (fs.openTo D).get? (ks ++ S) = fs.get? (ks ++ S) := by
    rw [ho.get?, if_neg fun hs => h.apart ((List.suffix_append ks S).trans hs)]
  refine ⟨⟨h.apart, h.apart', fun ks => ?_, fun ks => ?_, fun ks target hS => ?_⟩, .refl _, ?_⟩
  · rw [hsource]
    exact h.source_ne ks
  · rw [ho.get?]
    split
    · simp
    · exact h.dest_ne ks
  · rw [hsource] at hS
    rw [ho.get?]
    split
    · simp
    · exact h.link_ne ks target hS
  · rintro _ ⟨ks, rfl, -, hd⟩
    by_contra hne
    obtain ⟨e, he⟩ := Option.ne_none_iff_exists'.mp hne
    rw [ho.holds.eq_of_nil (List.suffix_append ks D) he] at hd
    exact hd ho.holds.get?_self

lemma get?_openTo_below (ho : fs.Opened (fs.openTo D) D) {ks : List String} (hks : ks ≠ []) :
    (fs.openTo D).get? (ks ++ D) = fs.get? (ks ++ D) := by
  rw [ho.get?, if_neg]
  intro hs
  have hlen := hs.length_le
  rw [List.length_append] at hlen
  have hpos := List.length_pos_iff.mpr hks
  omega

lemma lands_openTo (ho : fs.Opened (fs.openTo D) D) (h : Layable fs S D)
    (hS : fs.get? S = some .directory) : Lands (fs.openTo D) p S D ↔ Lands fs p S D := by
  refine forall₂_congr fun names e => ?_
  rw [ho.get?, if_neg fun hs => h.apart ((List.suffix_append _ S).trans hs)]
  refine imp_congr_right fun he => and_congr_right fun _ => not_congr ?_
  cases names with
  | nil =>
    obtain rfl : Entry.directory = e := Option.some.inj (hS.symm.trans he)
    have hD : (fs.openTo D).get? D = some .directory := ho.holds.get?_self
    simp [hD, ho.missing, conflicts]
  | cons n names => rw [get?_openTo_below ho (by simp)]

/-- The copy succeeds exactly when all that the source has can come to where it is to be, and then
stands there in place of what was there or next to it. -/
theorem copyTree_overlays (fs : FileSystem) (root dest : Path) (S D : Location)
    (hroot : fs.find .entry root = .ok (.there S .directory))
    (hdest : fs.Missing dest D ∨
      fs.find .entry dest = .ok (.there D .directory) ∧ Firm fs ⟨root, dest⟩ S D)
    (hlay : Layable fs S D) :
    ((copyTree root dest fs).1 = .ok () ↔ Lands fs ⟨root, dest⟩ S D) ∧
    ((copyTree root dest fs).1 = .ok () →
      (copyTree root dest fs).2.workDir = fs.workDir ∧
      (∀ ks, (copyTree root dest fs).2.get? (ks ++ D) =
        (fs.get? (ks ++ S)).or (fs.get? (ks ++ D))) ∧
      ∀ l, ¬ D <:+ l →
        (copyTree root dest fs).2.get? l = if l <:+ D then some .directory else fs.get? l) := by
  have hleads := leads_of_entry hroot
  rcases hdest with hdest | ⟨hthere, part, hgrows, hbare, hroot', hdest'⟩
  · obtain ⟨hmake, ho, hleads'⟩ := hdest.opened
    have hlays := copyTree_lays hroot hmake (ground_openTo ho hlay) (hleads.extends ho.grows) hleads'
    rw [lands_openTo ho hlay hleads.get?] at hlays
    refine ⟨hlays.1, fun hok => ?_⟩
    obtain ⟨houtside, hover⟩ := hlays.2 hok
    refine ⟨houtside.workDir.trans ho.grows.workDir, fun ks => ?_, fun l hl => ?_⟩
    · rw [hover, ho.get?, if_neg fun hs => hlay.apart ((List.suffix_append ks S).trans hs)]
      cases ks with
      | nil => simp [hleads.get?]
      | cons k ks => rw [get?_openTo_below ho (by simp)]
    · rw [houtside.get? l hl, ho.get?]
  · have hD := leads_of_entry hthere
    obtain ⟨hlands, hover⟩ := copyTree_lays hroot (makeDirectories_of_leads hD)
      ⟨hlay, hgrows, hbare⟩ hroot' hdest'
    refine ⟨hlands, fun hok => ?_⟩
    obtain ⟨houtside, hover⟩ := hover hok
    refine ⟨houtside.workDir, hover, fun l hl => ?_⟩
    rw [houtside.get? l hl]
    split_ifs with hs
    · exact get?_of_suffix hD.get? hs
    · rfl

end

section

variable {fs : FileSystem} {S D : Location} {root : Path} {p : Pair}

lemma forall_below {P : List String → Entry → Prop}
    (h : ∀ x ∈ fs.entries.toList, S <:+ x.1 → P (x.1.take (x.1.length - S.length)) x.2)
    (ks : List String) (e : Entry) (he : fs.get? (ks ++ S) = some e) : P ks e := by
  have hP := h (ks ++ S, e) (Std.ExtTreeMap.mem_toList_iff_getElem?_eq_some.mpr he)
    (List.suffix_append ks S)
  simpa using hP

lemma layable_of_entries (hS : ¬ S <:+ D) (hD : ¬ D <:+ S)
    (hpipes : ∀ x ∈ fs.entries.toList, x.2 ≠ .pipe)
    (hlinks : ∀ x ∈ fs.entries.toList, D <:+ x.1 → Entry.isLink x.2 = true →
      fs.get? (x.1.take (x.1.length - D.length) ++ S) ≠ some .directory) : Layable fs S D := by
  have hne (T : Location) (ks : List String) : fs.get? (ks ++ T) ≠ some .pipe := fun hp =>
    forall_below (P := fun _ e => e ≠ .pipe) (fun x hx _ => hpipes x hx) ks .pipe hp rfl
  refine ⟨hS, hD, hne S, hne D, fun ks target hdir hlink => ?_⟩
  exact forall_below (P := fun ks e => Entry.isLink e = true → fs.get? (ks ++ S) ≠ some .directory)
    hlinks ks _ hlink rfl hdir

lemma firm_of_eraseBelow (hD : fs.get? D = some .directory)
    (hsource : (fs.eraseBelow D).Leads p.source S) (hdest : (fs.eraseBelow D).Leads p.dest D) :
    Firm fs p S D := by
  refine ⟨fs.eraseBelow D, eraseBelow_extends fs D, ?_, hsource, hdest⟩
  rintro _ ⟨ks, rfl, -, hd⟩
  rw [get?_eraseBelow, if_pos]
  refine ⟨List.suffix_append ks D, fun he => hd ?_⟩
  rw [he]
  exact hD

lemma fails_copyTree_deep (hsource : fs.find .entry root = .ok (.there S .directory)) :
    Fails (copyTree root ⟨.relative, List.replicate pathLimit ⟨"n", rfl⟩⟩ fs) := by
  have hnul : ¬ Path.hasNul ⟨.relative, List.replicate pathLimit ⟨"n", rfl⟩⟩ = true := by
    rw [Path.hasNul, List.any_eq_true]
    rintro ⟨n, hn, hbad⟩
    rw [List.eq_of_mem_replicate hn] at hbad
    exact absurd hbad (by decide)
  have hlong : ¬ Path.byteLength ⟨.relative, List.replicate pathLimit ⟨"n", rfl⟩⟩ ≤ pathLimit := by
    intro hl
    have hlen := Path.length_lt hl
    rw [List.length_replicate] at hlen
    exact absurd hlen (Nat.lt_irrefl pathLimit)
  refine (fails_copyTree hsource (fails_makeDirectories_of_refused (r := .nameTooLong) ?_ ?_)).1
  · rw [find, if_neg hnul, if_pos (Nat.not_le.mp hlong)]
  · decide

end

def overFiles : FileSystem :=
  ((((FileSystem.empty.set ["t"] .directory).set ["a", "t"] (.file "new".toUTF8 0o644)).set ["o"]
    .directory).set ["a", "o"] (.link "../t")).set ["k", "o"] (.file "old".toUTF8 0o600)

theorem copyTree_overlays_link :
    (copyTree ⟨.relative, [⟨"t", rfl⟩]⟩ ⟨.relative, [⟨"o", rfl⟩]⟩ overFiles).2.get? ["a", "o"] =
      some (.file "new".toUTF8 0o644) ∧
    (copyTree ⟨.relative, [⟨"t", rfl⟩]⟩ ⟨.relative, [⟨"o", rfl⟩]⟩ overFiles).2.get? ["k", "o"] =
      some (.file "old".toUTF8 0o600) := by
  have hrun : ((runWithin copyVisit 2 [⟨⟨.relative, [⟨"t", rfl⟩]⟩, ⟨.relative, [⟨"o", rfl⟩]⟩⟩]
      overFiles).map Prod.fst) = some (.ok ()) := by
    decide +kernel
  obtain ⟨r, hr, hok⟩ := Option.map_eq_some_iff.mp hrun
  have hdone : (copyTree ⟨.relative, [⟨"t", rfl⟩]⟩ ⟨.relative, [⟨"o", rfl⟩]⟩ overFiles).1 =
      .ok () := by
    rw [copyTree, run_of_runWithin hr]
    exact hok
  have hfirm : Firm overFiles ⟨⟨.relative, [⟨"t", rfl⟩]⟩, ⟨.relative, [⟨"o", rfl⟩]⟩⟩ ["t"] ["o"] :=
    firm_of_eraseBelow (by decide +kernel) (by decide +kernel) (by decide +kernel)
  have hlay : Layable overFiles ["t"] ["o"] :=
    layable_of_entries (by decide) (by decide) (by decide +kernel) (by decide +kernel)
  obtain ⟨-, hover, -⟩ := (copyTree_overlays overFiles ⟨.relative, [⟨"t", rfl⟩]⟩
    ⟨.relative, [⟨"o", rfl⟩]⟩ ["t"] ["o"] rfl (.inr ⟨rfl, hfirm⟩) hlay).2 hdone
  exact ⟨(hover ["a"]).trans (by decide +kernel), (hover ["k"]).trans (by decide +kernel)⟩

def backFiles : FileSystem :=
  (((FileSystem.empty.set ["t"] .directory).set ["back", "t"] (.file "new".toUTF8 0o644)).set ["z"]
    .directory).set ["back", "z"] (.link "..")

theorem copyTree_cut_off :
    backFiles.find .entry ⟨.relative, [⟨"t", rfl⟩]⟩ = .ok (.there ["t"] .directory) ∧
    backFiles.find .entry ⟨.relative, [⟨"z", rfl⟩, ⟨"back", rfl⟩, ⟨"z", rfl⟩]⟩ =
      .ok (.there ["z"] .directory) ∧
    Layable backFiles ["t"] ["z"] ∧
    (∀ ks e, backFiles.get? (ks ++ ["t"]) = some e →
      ¬ conflicts e (backFiles.get? (ks ++ ["z"]))) ∧
    (copyTree ⟨.relative, [⟨"t", rfl⟩]⟩ ⟨.relative, [⟨"z", rfl⟩, ⟨"back", rfl⟩, ⟨"z", rfl⟩]⟩
      backFiles).1 ≠ .ok () ∧
    Fails (copyTree ⟨.relative, [⟨"t", rfl⟩]⟩
      ⟨.relative, List.replicate pathLimit ⟨"n", rfl⟩⟩ backFiles) ∧
    backFiles.get? ["x", "t"] = none ∧
    (copyTree ⟨.relative, [⟨"t", rfl⟩]⟩
      ⟨.relative, [⟨"o", rfl⟩, ⟨"..", rfl⟩, ⟨"..", rfl⟩, ⟨"x", rfl⟩, ⟨"t", rfl⟩]⟩
      backFiles).2.get? ["x", "o"] = some .directory := by
  have hcut : ((runWithin copyVisit 2 [⟨⟨.relative, [⟨"t", rfl⟩]⟩,
      ⟨.relative, [⟨"z", rfl⟩, ⟨"back", rfl⟩, ⟨"z", rfl⟩]⟩⟩] backFiles).map
      fun r => decide (r.1 = .ok ())) = some false := by
    decide +kernel
  have hway : ((runWithin copyVisit 3 [⟨⟨.relative, [⟨"t", rfl⟩]⟩,
      ⟨.relative, [⟨"o", rfl⟩, ⟨"..", rfl⟩, ⟨"..", rfl⟩, ⟨"x", rfl⟩, ⟨"t", rfl⟩]⟩⟩] backFiles).map
      fun r => r.2.get? ["x", "o"]) = some (some .directory) := by
    decide +kernel
  obtain ⟨cut, hcut, hcut_result⟩ := Option.map_eq_some_iff.mp hcut
  obtain ⟨way, hway, hway_get⟩ := Option.map_eq_some_iff.mp hway
  refine ⟨rfl, rfl, layable_of_entries (by decide) (by decide) (by decide +kernel)
    (by decide +kernel), forall_below (by decide +kernel), ?_, fails_copyTree_deep rfl,
    by decide +kernel, ?_⟩
  · rw [copyTree, run_of_runWithin hcut]
    exact of_decide_eq_false hcut_result
  · rw [copyTree, run_of_runWithin hway]
    exact hway_get

end Walk

end Scaffold
