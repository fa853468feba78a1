import Scaffold.Proofs.Walk.Confinement
import Scaffold.Proofs.Walk.Materialized

namespace Scaffold

namespace Walk

open Attempt FileAction FileSystem

lemma Follows.both {α : Type} {r : Except Stop α} {good good' : α → Prop} {bad bad' : Prop}
    (h : Follows r good bad) (h' : Follows r good' bad') :
    Follows r (fun a => good a ∧ good' a) (bad ∧ bad') := by
  rcases r with (_ | _) | a
  · exact ⟨h, h'⟩
  · trivial
  · exact ⟨h, h'⟩

def Contained {α : Type} (visit : Visit) (work : List Pair) (fs : FileSystem) (loc : Location)
    (r : Except Stop α) : Prop :=
  Follows r (fun _ => True) (∀ rest, fs.ChangesBelow (run visit (work ++ rest) fs).2 loc)

section

variable {visit : Visit} {p : Pair} {work : List Pair} {fs fs' : FileSystem} {loc : Location}
  {k : String}

lemma run_of_fails (h : Fails (visit p fs)) (rest : List Pair) :
    (run visit (p :: rest) fs).2 = (visit p fs).2 := by
  obtain ⟨e, he⟩ := h
  exact congrArg Prod.snd (run_of_error (Prod.ext he rfl) rest)

lemma contained_of_fails (h : Fails (visit p fs)) (ha : fs.ChangesBelow (visit p fs).2 loc)
    (rest : List Pair) : fs.ChangesBelow (run visit ([p] ++ rest) fs).2 loc := by
  rw [List.singleton_append, run_of_fails h]
  exact ha

lemma Contained.of_visit {α : Type} {r : Except Stop α} {out : Path} {names : List Name}
    (hv : visit p fs = (.ok (out, names), fs')) (hl : p.source.byteLength ≤ pathLimit)
    (ha : fs.ChangesBelow fs' loc) (h : Contained visit (names.map (p.child out)) fs' loc r) :
    Contained visit [p] fs loc r := by
  refine h.imp (fun _ _ => trivial) fun hb rest => ?_
  rw [List.singleton_append, run_of_ok hv hl]
  exact ha.trans (hb rest)

lemma Contained.map {α β : Type} {r : Except Stop α} (f : α → β)
    (h : Contained visit work fs loc r) :
    Contained visit work fs loc (r >>= fun a => pure (f a)) :=
  Follows.bind h (fun _ _ => trivial) id

lemma Contained.above {α : Type} {r : Except Stop α} (h : Contained visit work fs (k :: loc) r) :
    Contained visit work fs loc r :=
  h.imp (fun _ _ => trivial) fun hb rest => (hb rest).above

lemma Contained.cons {α β : Type} {r : Except Stop α} {proper : α → Prop} {after : α → FileSystem}
    {f : α → Except Stop β} (h : Contained visit [p] fs loc r)
    (hp : Performs visit [p] fs r proper after)
    (hf : ∀ a, proper a →
      fs.ChangesBelow (after a) loc ∧ Contained visit work (after a) loc (f a)) :
    Contained visit (p :: work) fs loc (r >>= f) := by
  refine Follows.bind (Follows.both hp h) (fun a ha => ?_) (fun hb rest => hb.2 (work ++ rest))
  obtain ⟨⟨hproper, hrun⟩, -⟩ := ha
  obtain ⟨hbelow, hrest⟩ := hf a hproper
  refine hrest.imp (fun _ _ => trivial) fun hb rest => ?_
  have hfront : run visit (p :: (work ++ rest)) fs = run visit (work ++ rest) (after a) :=
    hrun (work ++ rest)
  rw [List.cons_append, hfront]
  exact hbelow.trans (hb rest)

end

section

variable {fs : FileSystem} {p : Pair} {source dest : Path} {l : Location}

lemma copyEntry_confined (h : fs.Site p.dest l) (e : Entry) :
    Confined l (copyEntry p e) fs fun _ => True := by
  have hdone (fs' : FileSystem) :
      Confined l (pure (p.dest, []) : FileAction (Path × List Name)) fs' fun _ => True :=
    confined_of_state rfl trivial
  cases e with
  | link target => exact (copyLink_confined h).bind fun _ fs' _ => hdone fs'
  | file bytes mode => exact (copyFile_confined h).bind fun _ fs' _ => hdone fs'
  | directory =>
    refine (makeDirectories_confined h).bind fun _ fs' _ => ?_
    exact confined_ask_bind fun names => confined_of_state rfl trivial
  | pipe => exact confined_fail _

lemma copyVisit_confined (h : fs.Site p.dest l) :
    Confined l (copyVisit p) fs fun _ => True := by
  apply Confined.mapFailure
  apply confined_ask_bind
  intro e
  have he := copyEntry_confined h e
  cases e <;> exact he

lemma copyTree_confined_of_refused (h : fs.Refused dest l) :
    Confined l (copyTree source dest) fs fun _ => True := by
  obtain ⟨r, hr, hq⟩ := h.find
  have hfails : Fails (copyVisit ⟨source, dest⟩ fs) := by
    refine fails_mapFailure (fails_bind fun e fs' he => ?_) _
    obtain ⟨rfl, -⟩ := ask_state he
    have hcopy := fails_copyEntry_of_refused (p := ⟨source, dest⟩) hr hq e
    cases e <;> exact hcopy
  refine ⟨?_, fun _ _ _ => trivial⟩
  rw [copyTree, run_of_fails hfails]
  exact (copyVisit_confined (.inr h)).1

lemma handle_confined (h : fs.Site dest l) (ctx : Context) {action : Action} {e : Entry}
    (hcopy : ¬ (e = .directory ∧ action = .copy)) :
    Confined l (handle ctx source action dest e) fs fun _ => True := by
  rcases handle_cases ctx source action dest e with
    hsame | ⟨rfl, rfl⟩ | ⟨rfl, bytes, mode, rfl⟩
  · rw [hsame]
    exact copyEntry_confined (p := ⟨source, dest⟩) h e
  · exact absurd ⟨rfl, rfl⟩ hcopy
  · refine (makeRoom_confined h).bind fun _ _ hc =>
      (expandInto_confined hc ctx).bind fun _ _ hc => ?_
    exact (copyMode_confined hc).bind fun _ _ _ => confined_of_state rfl trivial

lemma handle_confined_of_refused (h : fs.Refused dest l) (ctx : Context) (action : Action)
    (e : Entry) : Confined l (handle ctx source action dest e) fs fun _ => True := by
  by_cases hcopy : e = .directory ∧ action = .copy
  · obtain ⟨rfl, rfl⟩ := hcopy
    exact (copyTree_confined_of_refused h).bind fun _ _ _ => confined_of_state rfl trivial
  · exact handle_confined (.inr h) ctx hcopy

end

section

variable {m : Manifest} {ctx : Context} {rel : String} {out : Path} {n : Name} {p : Pair}
  {fs : FileSystem} {loc : Location} {e : Entry}

lemma resolveEntry_changesBelow
    (h : ∀ action dest, effective fs ctx (m.lookup rel) p.dest = .ok (some (action, dest)) →
      fs.ChangesBelow (handle ctx p.source action dest e fs).2 loc) :
    fs.ChangesBelow (resolveEntry m ctx rel p e fs).2 loc := by
  rw [resolveEntry]
  by_cases hm : m.lookup rel = none ∧ rel = Manifest.fileName
  · rw [if_pos hm]
    exact .refl fs loc
  rw [if_neg hm, bind_apply, look]
  cases heff : effective fs ctx (m.lookup rel) p.dest with
  | error d => exact .refl fs loc
  | ok chosen =>
    rcases chosen with _ | ⟨action, dest⟩
    · exact .refl fs loc
    · exact h action dest heff

lemma decision_changesBelow (root : Path) (above : List Name) (hn : isEntryName n.1 = true)
    (hrefused : ∀ k : Name, k.1 ≠ ".." → isEntryName k.1 = false →
      fs.Refused (out.child k) (k.1 :: loc)) :
    Follows (decision m ctx root fs n above) (fun _ => True)
      ((sourceAt root (n :: above)).byteLength ≤ pathLimit →
        fs.ChangesBelow (resolveEntry m ctx (Path.text ⟨.relative, n :: above⟩)
          ⟨sourceAt root (n :: above), out.child n⟩ e fs).2 loc) := by
  rw [decision]
  by_cases hl : pathLimit < (sourceAt root (n :: above)).byteLength
  · simp only [hl, if_true]
    exact fun h => absurd hl (Nat.not_lt.mpr h)
  simp only [hl, if_false]
  by_cases hm : m.lookup (Path.text ⟨.relative, n :: above⟩) = none ∧
      Path.text ⟨.relative, n :: above⟩ = Manifest.fileName
  · rw [if_pos hm]
    trivial
  rw [if_neg hm]
  refine (naming_follows fs ctx out hn _).imp (fun _ _ => trivial) fun hbad _ => ?_
  apply resolveEntry_changesBelow
  intro action dest heff
  rcases hbad with ⟨d, hd⟩ | ⟨action', k, hk, hup, hname⟩
  · cases heff.symm.trans hd
  · cases heff.symm.trans hk
    exact (handle_confined_of_refused (hrefused k hup hname) ctx action e).1.below

lemma handle_copy_state {source dest : Path} :
    (handle ctx source .copy dest .directory fs).2 = (copyTree source dest fs).2 := by
  rw [handle, if_pos rfl, bind_apply]
  rcases copyTree source dest fs with ⟨d | u, fs'⟩ <;> rfl

end

end Walk

open Walk FileSystem Attempt FileAction

mutual

lemma Tree.copied_contained (t : Tree) {see : Forest → FileSystem} {out src : Path}
    {loc sloc : Location} {acc f : Forest} {k n : Name} (w : Window see out loc)
    (s : Source (see .nil) loc src sloc f) (hacc : acc.Proper) (ht : f.find? n.1 = some t)
    (hk : isEntryName k.1 = true) :
    Contained copyVisit [⟨src.child n, out.child k⟩] (see acc) loc
      (t.copied ⟨src.child n, out.child k⟩ (acc.find? k.1)) := by
  have hup := ((isEntryName_iff k).mp hk).1
  have hstop (h : (src.child n).byteLength ≤ pathLimit →
      Fails (copyEntry ⟨src.child n, out.child k⟩ t.entry (see acc))) :=
    contained_of_fails (fails_copyVisit w s hacc ht h)
      (copyVisit_confined (p := ⟨src.child n, out.child k⟩) (w.site hacc hup)).1.below
  by_cases hdir : t.entry = .directory
  · obtain ⟨g, rfl⟩ := Tree.eq_directory hdir
    refine Follows.bind (check_follows _) (fun _ hfit => ?_)
      (fun h => hstop fun hl => fails_copyEntry w hacc hup (fun hk' => h ⟨hl, hk'.2⟩) .directory)
    have hvisit := copyVisit_eq (p := ⟨src.child n, out.child k⟩)
      (entryAt_child w s hacc ht hfit.1)
    refine Follows.bind (copyEntry_directory w s hacc ht hfit.1 hk hfit.2)
      (fun inside hin => ?_) (fun hfail => hstop fun _ => hfail)
    have hopened := (copyEntry_confined (p := ⟨src.child n, out.child k⟩) (w.site hacc hup)
      .directory).agrees hin.2
    apply Contained.of_visit (hvisit.trans (mapFailure_of_ok hin.2 _)) hfit.1 hopened.below
    have hinner := Forest.copied_contained g (w.inner hacc hk hfit.2)
      (w.innerSource s hacc hk ht hfit.1) hin.1 (s.sorted.find? ht) fun _ _ h => h
    exact hinner.above.map _
  · exact (copied_leaf w s hacc ht hk hdir).imp (fun _ _ => trivial) hstop

lemma Forest.copied_contained (g : Forest) {see : Forest → FileSystem} {out src : Path}
    {loc sloc : Location} {acc f : Forest} (w : Window see out loc)
    (s : Source (see .nil) loc src sloc f) (hacc : acc.Proper) (hg : g.Sorted)
    (hf : ∀ k t, g.find? k = some t → f.find? k = some t) :
    Contained copyVisit (g.names.map (Pair.child ⟨src, out⟩ out)) (see acc) loc
      (g.copied ⟨src, out⟩ acc) := by
  cases g with
  | nil => trivial
  | cons n t rest =>
    have ht : f.find? n.1 = some t := hf n.1 t (Forest.find?_cons_self n t rest)
    have hname : isEntryName n.1 = true := s.isEntryName ht
    have hf' : ∀ k u, rest.find? k = some u → f.find? k = some u :=
      fun k u hu => hf k u (hg.find?_rest hu)
    refine Contained.cons (Tree.copied_contained t w s hacc ht hname)
      (Tree.copied_performs t w s hacc ht hname) fun u hu => ?_
    have hput := hacc.put hname hu
    exact ⟨w.changesBelow hacc hput, Forest.copied_contained rest w s hput hg.2.2 hf'⟩

end

mutual

lemma Tree.made_contained (t : Tree) (m : Manifest) (ctx : Context) (root : Path)
    {see : Forest → FileSystem} {out : Path} {loc sloc : Location} {acc f : Forest}
    {above : List Name} {n : Name} (w : Window see out loc)
    (s : Source (see .nil) loc (sourceAt root above) sloc f) (hacc : acc.Proper)
    (ht : f.find? n.1 = some t) :
    Contained (materializeVisit m ctx root) [⟨sourceAt root (n :: above), out.child n⟩] (see acc)
      loc (t.made m ctx root see above out n acc) := by
  by_cases hl : (sourceAt root (n :: above)).byteLength ≤ pathLimit
  swap
  · rw [Tree.made, decision, if_pos (Nat.not_le.mp hl)]
    have hentry := fails_entryAt w s hacc ht hl
    rw [child_sourceAt] at hentry
    apply contained_of_fails (fails_materializeVisit hentry)
    rw [materializeVisit, if_neg (sourceAt_ne_root root n above), mapFailure_snd, visitEntry,
      bind_snd_of_fails hentry, ask_snd]
    exact .refl _ loc
  have hvisit := materializeVisit_eq m ctx (out.child n) (entryAt_child w s hacc ht hl)
  have hstop (hf : Fails (resolveEntry m ctx (Path.text ⟨.relative, n :: above⟩)
        ⟨sourceAt root (n :: above), out.child n⟩ t.entry (see acc)))
      (hc : (see acc).ChangesBelow (resolveEntry m ctx (Path.text ⟨.relative, n :: above⟩)
        ⟨sourceAt root (n :: above), out.child n⟩ t.entry (see acc)).2 loc) (rest : List Pair) :
      (see acc).ChangesBelow (run (materializeVisit m ctx root)
        ([⟨sourceAt root (n :: above), out.child n⟩] ++ rest) (see acc)).2 loc := by
    apply contained_of_fails
    · rw [hvisit]
      exact fails_mapFailure hf _
    · rw [hvisit, mapFailure_snd]
      exact hc
  have hrefused : ∀ k : Name, k.1 ≠ ".." → isEntryName k.1 = false →
      (see acc).Refused (out.child k) (k.1 :: loc) := fun k hup hk fs ha =>
    (w.leads.extends (w.leads_of_agrees hacc ha)).refused hup fun h => by simp [hk] at h
  rw [Tree.made]
  refine Follows.bind ((decision_follows (s.isEntryName ht) out).both
    (decision_changesBelow root above (s.isEntryName ht) hrefused)) (fun chosen hc => ?_)
    (fun hbad => hstop ?_ (hbad.2 hl))
  swap
  · rcases hbad.1 hl t.entry with hbad | ⟨action, k, hup, hk, heq⟩
    · exact hbad
    · obtain ⟨r, hr, hq⟩ := (hrefused k hup hk).find
      rw [heq]
      exact fails_handle_of_refused hr hq
  obtain ⟨⟨-, hc⟩, -⟩ := hc
  rcases chosen with _ | ⟨action, k⟩
  · trivial
  obtain ⟨hk, hdo⟩ := hc t.entry
  have hup := ((isEntryName_iff k).mp hk).1
  have hsite := w.site hacc hup
  rw [hdo] at hstop
  -- What is not copied as a whole directory is confined in any case.
  have hfails (hcopy : ¬ (t.entry = .directory ∧ action = .copy))
      (hf : Fails (handle ctx (sourceAt root (n :: above)) action (out.child k) t.entry
        (see acc))) :=
    hstop hf (handle_confined hsite ctx hcopy).1.below
  have hleaf (hdir : t.entry ≠ .directory)
      (hmake : action ≠ .make ∨ ∀ bytes mode, t.entry ≠ .file bytes mode) :=
    (made_copy_follows w s hacc ht hl hk ctx (fun he => absurd he hdir) hmake).imp
      (fun _ _ => trivial) (hfails fun h => hdir h.1)
  cases t with
  | link target => exact hleaf (by simp [Tree.entry]) (.inr (by simp [Tree.entry]))
  | pipe => exact hleaf (by simp [Tree.entry]) (.inr (by simp [Tree.entry]))
  | file bytes mode =>
    by_cases hmake : action = .make
    · subst hmake
      simp only [if_true]
      exact (made_file_follows w s hacc ht hl hk ctx).imp (fun _ _ => trivial)
        (hfails (by simp))
    · simp only [if_neg hmake]
      exact hleaf (by simp [Tree.entry]) (.inl hmake)
  | directory g =>
    by_cases hcopy : action = .copy
    · subst hcopy
      simp only [if_true]
      have hcopied := (Tree.copied_contained (.directory g) w s hacc ht hk).map (acc.put k)
      refine ((made_copy_follows w s hacc ht hl hk ctx (fun _ => rfl) (.inl (by simp))).both
        hcopied).imp (fun _ _ => trivial) fun hbad => hstop hbad.1 ?_
      have hstate : (handle ctx (sourceAt root (n :: above)) .copy (out.child k)
          (Tree.directory g).entry (see acc)).2 = _ := handle_copy_state
      rw [hstate]
      exact hbad.2 []
    · simp only [if_neg hcopy]
      have hfails' := hfails fun h => hcopy h.2
      have hopen : handle ctx (sourceAt root (n :: above)) action (out.child k)
          (Tree.directory g).entry = _ := handle_of_descent hcopy
      rw [hopen] at hfails' hdo
      refine Follows.bind (check_follows _) (fun _ hfit => ?_) (fun h => hfails' ?_)
      · refine Follows.bind (copyEntry_directory w s hacc ht hfit.1 hk hfit.2)
          (fun inside hin => ?_) hfails'
        have hopened := (copyEntry_confined (p := ⟨sourceAt root (n :: above), out.child k⟩)
          hsite .directory).agrees hin.2
        have hsource : Source (see (acc.put k (.directory .nil))) (k.1 :: loc)
            (sourceAt root (n :: above)) (n.1 :: sloc) g := w.innerSource s hacc hk ht hfit.1
        have hinner := Forest.made_contained g m ctx root (w.inner hacc hk hfit.2) hsource hin.1
          (s.sorted.find? ht) fun _ _ h => h
        exact Contained.of_visit ((hvisit.trans (mapFailure_of_ok (hdo.trans hin.2) _))) hl
          hopened.below (hinner.above.map _)
      · exact fails_copyEntry w hacc hup (fun hk' => h ⟨hl, hk'.2⟩) .directory

lemma Forest.made_contained (g : Forest) (m : Manifest) (ctx : Context) (root : Path)
    {see : Forest → FileSystem} {out : Path} {loc sloc : Location} {acc f : Forest}
    {above : List Name} (w : Window see out loc)
    (s : Source (see .nil) loc (sourceAt root above) sloc f) (hacc : acc.Proper) (hg : g.Sorted)
    (hf : ∀ k t, g.find? k = some t → f.find? k = some t) :
    Contained (materializeVisit m ctx root)
      (g.names.map (Pair.child ⟨sourceAt root above, out⟩ out)) (see acc) loc
      (g.made m ctx root see above out acc) := by
  cases g with
  | nil => trivial
  | cons n t rest =>
    have ht : f.find? n.1 = some t := hf n.1 t (Forest.find?_cons_self n t rest)
    have hf' : ∀ k u, rest.find? k = some u → f.find? k = some u :=
      fun k u hu => hf k u (hg.find?_rest hu)
    refine Contained.cons (Tree.made_contained t m ctx root w s hacc ht)
      (Tree.made_performs t m ctx root w s hacc ht) fun acc' hacc' => ?_
    exact ⟨w.changesBelow hacc hacc', Forest.made_contained rest m ctx root w s hacc' hg.2.2 hf'⟩

end

end Scaffold
