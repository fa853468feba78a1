import Scaffold.Proofs.Walk.Structural
import Scaffold.Proofs.Walk.Window

namespace Scaffold

namespace Walk

open Attempt FileAction FileSystem

def Follows {α : Type} (r : Except Stop α) (good : α → Prop) (bad : Prop) : Prop :=
  match r with
  | .ok a => good a
  | .error .failure => bad
  | .error .astray => True

lemma Follows.bind {α β : Type} {r : Except Stop α} {f : α → Except Stop β} {good : α → Prop}
    {bad : Prop} {good' : β → Prop} {bad' : Prop} (h : Follows r good bad)
    (hf : ∀ a, good a → Follows (f a) good' bad') (hb : bad → bad') :
    Follows (r >>= f) good' bad' := by
  rcases r with (_ | _) | a
  · exact hb h
  · trivial
  · exact hf a h

lemma Follows.imp {α : Type} {r : Except Stop α} {good good' : α → Prop} {bad bad' : Prop}
    (h : Follows r good bad) (hg : ∀ a, good a → good' a) (hb : bad → bad') :
    Follows r good' bad' := by
  rcases r with (_ | _) | a
  · exact hb h
  · trivial
  · exact hg a h

lemma check_follows (p : Pair) : Follows p.check
    (fun _ => p.source.byteLength ≤ pathLimit ∧ p.dest.byteLength ≤ pathLimit)
    (¬ (p.source.byteLength ≤ pathLimit ∧ p.dest.byteLength ≤ pathLimit)) := by
  rw [Pair.check]
  by_cases h : p.source.byteLength ≤ pathLimit ∧ p.dest.byteLength ≤ pathLimit
  · rw [if_pos h]
    exact h
  · rw [if_neg h]
    exact h

lemma fits_of_check {p : Pair} (h : p.check = .ok ()) :
    p.source.byteLength ≤ pathLimit ∧ p.dest.byteLength ≤ pathLimit := by
  have hfits := check_follows p
  rwa [h] at hfits

lemma overLeaf_follows {old : Option Tree} (hp : old.map Tree.entry ≠ some .pipe) :
    Follows (overLeaf old) (fun _ => old.map Tree.entry ≠ some .directory)
      (old.map Tree.entry = some .directory) := by
  rcases old with _ | (_ | _ | _ | _) <;> simp_all [Follows, overLeaf, Tree.entry]

lemma overDirectory_follows {old : Option Tree} (hp : old.map Tree.entry ≠ some .pipe) :
    Follows (overDirectory old)
      (fun inside => old = none ∧ inside = .nil ∨ old = some (.directory inside))
      (∃ bytes mode, old = some (.file bytes mode)) := by
  rcases old with _ | (_ | _ | _ | _) <;> simp_all [Follows, overDirectory, Tree.entry]

def copyEntry (p : Pair) : Entry → FileAction (Path × List Name)
  | .link _ => do
    copyLink p.source p.dest
    pure (p.dest, [])
  | .file .. => do
    copyFile p.source p.dest
    pure (p.dest, [])
  | .directory => openDirectory p.source p.dest
  | .pipe => fail (.unsupportedKind p.source)

lemma fails_copyEntry_of_refused {p : Pair} {fs : FileSystem} {r : Refusal} (hr : r ≠ .noEntry)
    (h : ∀ q, fs.find q p.dest = .error r) (e : Entry) : Fails (copyEntry p e fs) := by
  cases e with
  | link target => exact fails_bind_left (fails_copyLink h) _
  | file bytes mode => exact fails_bind_left (fails_copyFile h) _
  | directory => exact fails_bind_left (fails_makeDirectories_of_refused (h .entry) hr) _
  | pipe => exact ⟨_, rfl⟩

section

variable {fs : FileSystem} {p source : Path} {l : Location} {e : Entry}

lemma copyEntry_of_leaf (h : fs.Place p l) (hs : fs.Shows l source e) (he : e ≠ .directory)
    (hp : e ≠ .pipe) (hold : fs.get? l ≠ some .directory) (hold' : fs.get? l ≠ some .pipe) :
    copyEntry ⟨source, p⟩ e fs = (.ok (p, []), fs.replace l e) := by
  cases e with
  | directory => exact absurd rfl he
  | pipe => exact absurd rfl hp
  | link target => exact bind_of_ok (copyLink_of_leaf h hs hold hold') _
  | file bytes mode => exact bind_of_ok (copyFile_of_leaf h hs hold hold') _

lemma fails_copyEntry_over (h : fs.Denotes p l) (he : e ≠ .directory)
    (hold : fs.get? l = some .directory) : Fails (copyEntry ⟨source, p⟩ e fs) := by
  have hroom := makeRoom_directory h hold
  cases e with
  | directory => exact absurd rfl he
  | pipe => exact ⟨_, rfl⟩
  | link | file => exact fails_bind_left (fails_bind_left hroom _) _

lemma fails_openDirectory_over (h : fs.Denotes p l) {bytes : ByteArray} {mode : Nat}
    (hold : fs.get? l = some (.file bytes mode)) : Fails (openDirectory source p fs) := by
  have hfile : fs.isDirectory p = .ok false := by
    rw [isDirectory, h.ask_targetAt (by simp [hold]), hold]
    rfl
  have hthere := h.find_there hold (by simp) .entry
  exact fails_bind_left (fails_makeDirectories_of_there hthere (by simp [hfile])) _

end

lemma copied_of_leaf {t : Tree} (ht : t.entry ≠ .directory) (hp : t.entry ≠ .pipe) (p : Pair)
    (old : Option Tree) :
    t.copied p old = (do
      p.check
      overLeaf old
      pure t) := by
  cases t with
  | directory => exact absurd rfl ht
  | pipe => exact absurd rfl hp
  | link | file => rfl

section

variable {see : Forest → FileSystem} {out src : Path} {loc sloc : Location} {acc f : Forest}
  {k n : Name} {t : Tree}

lemma copyVisit_eq {p : Pair} {fs : FileSystem} {e : Entry} (h : fs.entryAt p.source = .ok e) :
    copyVisit p fs = mapFailure (blameCopy p) (copyEntry p e) fs := by
  rw [copyVisit, mapFailure, mapFailure, bind_of_ok (ask_of_ok h)]
  cases e <;> rfl

lemma copyVisit_of_refused {p : Pair} {fs : FileSystem} {r : Refusal}
    (h : fs.entryAt p.source = .error r) : ∃ e, copyVisit p fs = (.error e, fs) := by
  refine ⟨blameCopy p (.obstacle (.refused r p.source.text)), ?_⟩
  rw [copyVisit, mapFailure, bind_apply, FileAction.ask, h]

lemma entryAt_child (w : Window see out loc) (s : Source (see .nil) loc src sloc f)
    (hacc : acc.Proper) (ht : f.find? n.1 = some t) (hl : (src.child n).byteLength ≤ pathLimit) :
    (see acc).entryAt (src.child n) = .ok t.entry := by
  have s' := w.source (k := n) s hacc (.refl _ _)
  exact (s'.denotes ht hl).entryAt (s'.get?_child ht)

lemma fails_entryAt (w : Window see out loc) (s : Source (see .nil) loc src sloc f)
    (hacc : acc.Proper) (ht : f.find? n.1 = some t)
    (hl : ¬ (src.child n).byteLength ≤ pathLimit) :
    Fails (FileAction.ask FileSystem.entryAt (src.child n) (see acc)) := by
  have s' := w.source (k := n) s hacc (.refl _ _)
  obtain ⟨r, hr⟩ := s'.refused ht hl .entry
  rw [FileAction.ask, FileSystem.entryAt, hr]
  exact ⟨_, rfl⟩

lemma fails_copyEntry (w : Window see out loc) (hacc : acc.Proper) (hk : k.1 ≠ "..")
    (h : ¬ (isEntryName k.1 = true ∧ (out.child k).byteLength ≤ pathLimit)) (e : Entry) :
    Fails (copyEntry ⟨src, out.child k⟩ e (see acc)) := by
  obtain ⟨r, hr, hq⟩ := w.refused hacc hk h
  exact fails_copyEntry_of_refused hr hq e

lemma fails_copyVisit (w : Window see out loc) (s : Source (see .nil) loc src sloc f)
    (hacc : acc.Proper) (ht : f.find? n.1 = some t)
    (h : (src.child n).byteLength ≤ pathLimit →
      Fails (copyEntry ⟨src.child n, out.child k⟩ t.entry (see acc))) :
    Fails (copyVisit ⟨src.child n, out.child k⟩ (see acc)) := by
  by_cases hl : (src.child n).byteLength ≤ pathLimit
  · rw [copyVisit_eq (entryAt_child w s hacc ht hl)]
    exact fails_mapFailure (h hl) _
  · exact fails_mapFailure (fails_bind_left (fails_entryAt w s hacc ht hl) _) _

lemma copied_leaf (w : Window see out loc) (s : Source (see .nil) loc src sloc f)
    (hacc : acc.Proper) (ht : f.find? n.1 = some t) (hk : isEntryName k.1 = true)
    (hleaf : t.entry ≠ .directory) :
    Follows (t.copied ⟨src.child n, out.child k⟩ (acc.find? k.1))
      (fun u => u.Proper ∧ (src.child n).byteLength ≤ pathLimit ∧
        copyEntry ⟨src.child n, out.child k⟩ t.entry (see acc) =
          (.ok (out.child k, []), see (acc.put k u)))
      ((src.child n).byteLength ≤ pathLimit →
        Fails (copyEntry ⟨src.child n, out.child k⟩ t.entry (see acc))) := by
  by_cases hpipe : t = .pipe
  · subst hpipe
    exact fun _ => ⟨_, rfl⟩
  have hpipe' : t.entry ≠ .pipe := fun he => by cases t <;> simp_all [Tree.entry]
  rw [copied_of_leaf hleaf hpipe']
  apply Follows.bind (check_follows _)
  · intro _ hfit
    have hplace := w.place hacc hk hfit.2
    have hshows := w.shows (k := k) s hacc ht hfit.1
    have hnone := w.get?_child_ne (n := k) hacc
    apply Follows.bind (overLeaf_follows (w.get?_child hacc ▸ hnone))
    · intro _ hold
      rw [← w.get?_child hacc] at hold
      refine ⟨Tree.proper_of_leaf hleaf hpipe', hfit.1, ?_⟩
      rw [← w.replace hacc hk hold hleaf hpipe']
      exact copyEntry_of_leaf hplace hshows hleaf hpipe' hold hnone
    · intro hold _
      rw [← w.get?_child hacc] at hold
      exact fails_copyEntry_over (hplace.denotes _ (.refl _ _)) hleaf hold
  · intro h hl
    exact fails_copyEntry w hacc ((isEntryName_iff k).mp hk).1 (fun hk' => h ⟨hl, hk'.2⟩) t.entry

lemma copyEntry_directory (w : Window see out loc) (s : Source (see .nil) loc src sloc f)
    (hacc : acc.Proper) {g : Forest} (ht : f.find? n.1 = some (.directory g))
    (hl : (src.child n).byteLength ≤ pathLimit) (hk : isEntryName k.1 = true)
    (hk' : (out.child k).byteLength ≤ pathLimit) :
    Follows (overDirectory (acc.find? k.1))
      (fun inside => inside.Proper ∧
        copyEntry ⟨src.child n, out.child k⟩ .directory (see acc) =
          (.ok (out.child k, g.names), see (acc.put k (.directory inside))))
      (Fails (copyEntry ⟨src.child n, out.child k⟩ .directory (see acc))) := by
  have hden := (w.place hacc hk hk').denotes _ (.refl _ _)
  have hget := w.get?_child (n := k) hacc
  have hlist (inside : Forest) (hin : inside.Proper) :
      (see (acc.put k (.directory inside))).list (src.child n) = .ok g.names :=
    ((w.inner hacc hk hk').source (k := k) (w.innerSource s hacc hk ht hl) hin (.refl _ _)).list
  apply (overDirectory_follows (hget ▸ w.get?_child_ne hacc)).imp
  · rintro inside (⟨hold, rfl⟩ | hold)
    · rw [hold, Option.map_none] at hget
      refine ⟨trivial, ?_⟩
      have hmake := makeDirectories_of_none (hden.find_vacant hget .entry)
      rw [w.set_directory hacc hk hget] at hmake
      rw [copyEntry, openDirectory, bind_of_ok hmake,
        bind_of_ok (ask_of_ok (hlist .nil trivial))]
      rfl
    · rw [hold, Option.map_some] at hget
      have hin : inside.Proper := (hacc.find? hold).1
      have hmake := makeDirectories_of_directory hden hget
      have hlist' := hlist inside hin
      rw [Forest.put_of_find? hold] at hlist' ⊢
      refine ⟨hin, ?_⟩
      rw [copyEntry, openDirectory, bind_of_ok hmake, bind_of_ok (ask_of_ok hlist')]
      rfl
  · rintro ⟨bytes, mode, hold⟩
    rw [hold, Option.map_some] at hget
    exact fails_openDirectory_over hden hget

end

section

variable {visit : Visit} {p : Pair} {rest : List Pair} {fs fs' : FileSystem}

lemma run_nil (visit : Visit) (fs : FileSystem) : run visit [] fs = (.ok (), fs) := by
  rw [run]

lemma run_of_ok {out : Path} {names : List Name} (h : visit p fs = (.ok (out, names), fs'))
    (hl : p.source.byteLength ≤ pathLimit) :
    run visit (p :: rest) fs = run visit (names.map (p.child out) ++ rest) fs' := by
  rw [run, h]
  exact if_pos (Path.length_lt hl)

lemma run_of_error {e : Failure} (h : visit p fs = (.error e, fs')) (rest : List Pair) :
    run visit (p :: rest) fs = (.error e, fs') := by
  rw [run, h]

lemma fails_run (h : Fails (visit p fs)) : Fails (run visit (p :: rest) fs) := by
  obtain ⟨e, he⟩ := h
  exact ⟨e, congrArg Prod.fst (run_of_error (Prod.ext he rfl) rest)⟩

lemma short_of_entryAt {source : Path} {e : Entry} (h : fs.entryAt source = .ok e) :
    source.byteLength ≤ pathLimit := by
  obtain ⟨l, hl⟩ := entryAt_eq_ok h
  exact (find_eq_walk hl).2.1

lemma copyTree_of_lost {source : Path} {r : Refusal} (h : fs.entryAt source = .error r)
    (dest : Path) : ∃ e, copyTree source dest fs = (.error e, fs) := by
  obtain ⟨e, hvisit⟩ := copyVisit_of_refused (p := ⟨source, dest⟩) h
  exact ⟨e, run_of_error hvisit []⟩

lemma copyTree_of_unopened {source dest : Path} {e : Failure}
    (h : fs.entryAt source = .ok .directory)
    (hopen : openDirectory source dest fs = (.error e, fs')) :
    ∃ e, copyTree source dest fs = (.error e, fs') := by
  have hvisit := (copyVisit_eq (p := ⟨source, dest⟩) h).trans (mapFailure_of_error hopen _)
  exact ⟨_, run_of_error hvisit []⟩

lemma copyTree_of_opened {source dest out : Path} {names : List Name}
    (h : fs.entryAt source = .ok .directory)
    (hopen : openDirectory source dest fs = (.ok (out, names), fs')) :
    copyTree source dest fs = run copyVisit (names.map (Pair.child ⟨source, dest⟩ out)) fs' := by
  have hvisit := (copyVisit_eq (p := ⟨source, dest⟩) h).trans (mapFailure_of_ok hopen _)
  rw [copyTree, run_of_ok hvisit (short_of_entryAt h), List.append_nil]

def runWithin (visit : Visit) :
    Nat → List Pair → FileSystem → Option (Except Failure Unit × FileSystem)
  | _, [], fs => some (.ok (), fs)
  | 0, _ :: _, _ => none
  | k + 1, p :: rest, fs =>
    match visit p fs with
    | (.error e, fs) => some (.error e, fs)
    | (.ok (out, names), fs) =>
      if p.source.names.length < pathLimit then
        runWithin visit k (names.map (p.child out) ++ rest) fs
      else runWithin visit k rest fs

lemma run_of_runWithin {k : Nat} {work : List Pair} {r : Except Failure Unit × FileSystem}
    (h : runWithin visit k work fs = some r) : run visit work fs = r := by
  induction k generalizing work fs with
  | zero =>
    cases work with
    | nil =>
      rw [run_nil]
      exact Option.some.inj h
    | cons p rest => cases h
  | succ k ih =>
    cases work with
    | nil =>
      rw [run_nil]
      exact Option.some.inj h
    | cons p rest =>
      rw [run]
      simp only [runWithin] at h
      rcases hv : visit p fs with ⟨e | ⟨out, names⟩, fs'⟩
      · rw [hv] at h
        exact Option.some.inj h
      · rw [hv] at h
        by_cases hl : p.source.names.length < pathLimit
        · simp only [if_pos hl] at h ⊢
          exact ih h
        · simp only [if_neg hl] at h ⊢
          exact ih h

def Performs {α : Type} (visit : Visit) (work : List Pair) (fs : FileSystem) (r : Except Stop α)
    (proper : α → Prop) (after : α → FileSystem) : Prop :=
  Follows r (fun a => proper a ∧ ∀ rest, run visit (work ++ rest) fs = run visit rest (after a))
    (∀ rest, Fails (run visit (work ++ rest) fs))

lemma Performs.cons {α β : Type} {work : List Pair} {r : Except Stop α} {proper : α → Prop}
    {after : α → FileSystem} {f : α → Except Stop β} {proper' : β → Prop}
    {after' : β → FileSystem} (h : Performs visit [p] fs r proper after)
    (hf : ∀ a, proper a → Performs visit work (after a) (f a) proper' after') :
    Performs visit (p :: work) fs (r >>= f) proper' after' := by
  refine Follows.bind h (fun a ha => ?_) (fun hb rest => hb (work ++ rest))
  have hfront (rest : List Pair) :
      run visit (p :: (work ++ rest)) fs = run visit (work ++ rest) (after a) :=
    ha.2 (work ++ rest)
  refine (hf a ha.1).imp (fun b hb => ⟨hb.1, fun rest => ?_⟩) (fun hb rest => ?_)
  · exact (hfront rest).trans (hb.2 rest)
  · rw [List.cons_append, hfront]
    exact hb rest

lemma Performs.of_visit {α : Type} {r : Except Stop α} {proper : α → Prop} {after : α → FileSystem}
    {out : Path} {names : List Name} (hv : visit p fs = (.ok (out, names), fs'))
    (hl : p.source.byteLength ≤ pathLimit)
    (h : Performs visit (names.map (p.child out)) fs' r proper after) :
    Performs visit [p] fs r proper after := by
  refine h.imp (fun a ha => ⟨ha.1, fun rest => ?_⟩) (fun hb rest => ?_)
  · rw [List.singleton_append, run_of_ok hv hl, ha.2]
  · rw [List.singleton_append, run_of_ok hv hl]
    exact hb rest

lemma Performs.map {α β : Type} {work : List Pair} {r : Except Stop α} {proper : α → Prop}
    {after : α → FileSystem} {f : α → β} {proper' : β → Prop} {after' : β → FileSystem}
    (h : Performs visit work fs r proper after) (hp : ∀ a, proper a → proper' (f a))
    (hfs : ∀ a, after' (f a) = after a) :
    Performs visit work fs (r >>= fun a => pure (f a)) proper' after' := by
  refine Follows.bind h (fun a ha => ?_) id
  exact ⟨hp a ha.1, fun rest => by rw [ha.2, hfs]⟩

lemma performs_pure {α : Type} {a : α} {proper : α → Prop} {after : α → FileSystem}
    (h : proper a) (hfs : after a = fs) :
    Performs visit [] fs (.ok a : Except Stop α) proper after :=
  ⟨h, fun _ => by rw [hfs]; rfl⟩

end

end Walk

open Walk FileSystem Attempt

mutual

lemma Tree.copied_performs (t : Tree) {see : Forest → FileSystem} {out src : Path}
    {loc sloc : Location} {acc f : Forest} {k n : Name} (w : Window see out loc)
    (s : Source (see .nil) loc src sloc f) (hacc : acc.Proper) (ht : f.find? n.1 = some t)
    (hk : isEntryName k.1 = true) :
    Performs copyVisit [⟨src.child n, out.child k⟩] (see acc)
      (t.copied ⟨src.child n, out.child k⟩ (acc.find? k.1)) Tree.Proper
      (fun u => see (acc.put k u)) := by
  have hfails (h : (src.child n).byteLength ≤ pathLimit →
      Fails (copyEntry ⟨src.child n, out.child k⟩ t.entry (see acc))) (rest : List Pair) :
      Fails (run copyVisit (⟨src.child n, out.child k⟩ :: rest) (see acc)) :=
    fails_run (fails_copyVisit w s hacc ht h)
  by_cases hdir : t.entry = .directory
  · obtain ⟨g, rfl⟩ := Tree.eq_directory hdir
    have hunfit (h : ¬ ((src.child n).byteLength ≤ pathLimit ∧
        (out.child k).byteLength ≤ pathLimit)) :=
      hfails fun hl => fails_copyEntry w hacc ((isEntryName_iff k).mp hk).1
        (fun hk' => h ⟨hl, hk'.2⟩) .directory
    refine Follows.bind (check_follows _) (fun _ hfit => ?_) hunfit
    have hvisit := copyVisit_eq (p := ⟨src.child n, out.child k⟩)
      (entryAt_child w s hacc ht hfit.1)
    refine Follows.bind (copyEntry_directory w s hacc ht hfit.1 hk hfit.2)
      (fun inside hin => ?_) (fun hfail => hfails fun _ => hfail)
    apply Performs.of_visit (hvisit.trans (mapFailure_of_ok hin.2 _)) hfit.1
    exact Performs.map (Forest.copied_performs g (w.inner hacc hk hfit.2)
      (w.innerSource s hacc hk ht hfit.1) hin.1 (s.sorted.find? ht) fun _ _ h => h)
      (fun _ h => h) fun _ => rfl
  · refine (copied_leaf w s hacc ht hk hdir).imp (fun u hu => ⟨hu.1, fun rest => ?_⟩) hfails
    have hvisit := copyVisit_eq (p := ⟨src.child n, out.child k⟩)
      (entryAt_child w s hacc ht hu.2.1)
    exact run_of_ok (hvisit.trans (mapFailure_of_ok hu.2.2 _)) hu.2.1

lemma Forest.copied_performs (g : Forest) {see : Forest → FileSystem} {out src : Path}
    {loc sloc : Location} {acc f : Forest} (w : Window see out loc)
    (s : Source (see .nil) loc src sloc f) (hacc : acc.Proper) (hg : g.Sorted)
    (hf : ∀ k t, g.find? k = some t → f.find? k = some t) :
    Performs copyVisit (g.names.map (Pair.child ⟨src, out⟩ out)) (see acc)
      (g.copied ⟨src, out⟩ acc) Forest.Proper see := by
  cases g with
  | nil => exact performs_pure hacc rfl
  | cons n t rest =>
    have ht : f.find? n.1 = some t := hf n.1 t (Forest.find?_cons_self n t rest)
    have hname : isEntryName n.1 = true := s.isEntryName ht
    have hf' : ∀ k u, rest.find? k = some u → f.find? k = some u :=
      fun k u hu => hf k u (hg.find?_rest hu)
    apply Performs.cons (Tree.copied_performs t w s hacc ht hname)
    intro u hu
    exact Forest.copied_performs rest w s (hacc.put hname hu) hg.2.2 hf'

end

end Scaffold
