import Scaffold.Proofs.Walk.Copying

namespace Scaffold

namespace Walk

open Attempt FileAction FileSystem

lemma effective_of_text (fs : FileSystem) (ctx : Context) (dest : Path) {action : Action}
    {text : String} (ha : action ≠ .ignore) (ht : text ≠ "") :
    effective fs ctx (some ⟨action, text⟩) dest = match Expr.expandString fs ctx text with
      | .error e => .error e
      | .ok s =>
        if s = "" then .ok none
        else if s = ".." then .error (.badFileName ".." dest)
        else match Name.ofString? s with
          | none => .error (.badFileName s dest)
          | some k => .ok (some (action, dest.withName k)) := by
  simp only [effective]
  cases Expr.expandString fs ctx text with
  | error e => rfl
  | ok s =>
    by_cases hs : s = ""
    · subst hs
      rfl
    by_cases hup : s = ".."
    · subst hup
      rfl
    cases hk : Name.ofString? s with
    | none => simp only [hs, hup, hk, if_false]
    | some k => simp only [hs, hup, hk, if_false]

lemma naming_follows (fs : FileSystem) (ctx : Context) (out : Path) {n : Name}
    (hn : isEntryName n.1 = true) (rule : Option FileRule) :
    Follows (naming fs ctx n rule)
      (fun chosen => effective fs ctx rule (out.child n) =
        .ok (chosen.map fun c => (c.1, out.child c.2)) ∧
        ∀ c, chosen = some c → isEntryName c.2.1 = true)
      ((∃ e, effective fs ctx rule (out.child n) = .error e) ∨
        ∃ action k, effective fs ctx rule (out.child n) = .ok (some (action, out.child k)) ∧
          k.1 ≠ ".." ∧ isEntryName k.1 = false) := by
  have hown (action : Action) (c : Action × Name) (hc : some (action, n) = some c) :
      isEntryName c.2.1 = true := by
    cases hc
    exact hn
  rcases rule with _ | ⟨action, text⟩
  · exact ⟨rfl, hown .auto⟩
  by_cases ha : action = .ignore
  · subst ha
    exact ⟨rfl, fun c hc => by cases hc⟩
  simp only [naming, ha, if_false]
  by_cases ht : text = ""
  · subst ht
    cases action with
    | ignore => exact absurd rfl ha
    | auto => exact ⟨rfl, hown .auto⟩
    | copy => exact ⟨rfl, hown .copy⟩
    | make => exact ⟨rfl, hown .make⟩
  rw [if_neg ht, effective_of_text fs ctx _ ha ht]
  cases Expr.expandString fs ctx text with
  | error e => exact .inl ⟨e, rfl⟩
  | ok s =>
    by_cases hs : s = ""
    · simp only [hs, if_true]
      exact ⟨rfl, fun c hc => by cases hc⟩
    simp only [hs, if_false]
    by_cases hup : s = ".."
    · subst hup
      exact .inl ⟨_, rfl⟩
    simp only [hup, if_false]
    cases hk : Name.ofString? s with
    | none => exact .inl ⟨_, rfl⟩
    | some k =>
      have hks : k.1 = s := by
        rw [Name.ofString?] at hk
        split_ifs at hk
        cases hk
        rfl
      by_cases he : isEntryName s = true
      · simp only [he, if_true]
        refine ⟨rfl, fun c hc => ?_⟩
        cases hc
        exact hks ▸ he
      · simp only [he]
        exact .inr ⟨action, k, rfl, hks ▸ hup, hks ▸ Bool.eq_false_iff.mpr he⟩

lemma pathBelow_sourceAt (root : Path) (names : List Name) :
    pathBelow root (sourceAt root names) = .ok (Path.text ⟨.relative, names⟩) := by
  rw [pathBelow, Path.relativeTo?, if_pos ⟨rfl, List.suffix_append names root.names⟩]
  have htake : (names ++ root.names).take ((names ++ root.names).length - root.names.length) =
      names := by
    rw [List.length_append, Nat.add_sub_cancel, List.take_left]
  exact congrArg (fun l => Except.ok (Path.text ⟨.relative, l⟩)) htake

lemma child_sourceAt (root : Path) (names : List Name) (n : Name) :
    (sourceAt root names).child n = sourceAt root (n :: names) := rfl

lemma sourceAt_ne_root (root : Path) (n : Name) (above : List Name) :
    sourceAt root (n :: above) ≠ root := fun h => by
  have hlen := congrArg (fun p : Path => p.names.length) h
  simp [sourceAt] at hlen
  omega

section

variable {m : Manifest} {ctx : Context} {root : Path} {above : List Name} {n : Name} {dest : Path}
  {fs : FileSystem} {e : Entry}

lemma fails_materializeVisit
    (h : Fails (FileAction.ask FileSystem.entryAt (sourceAt root (n :: above)) fs)) :
    Fails (materializeVisit m ctx root ⟨sourceAt root (n :: above), dest⟩ fs) := by
  rw [materializeVisit, if_neg (sourceAt_ne_root root n above)]
  exact fails_mapFailure (fails_bind_left h _) _

def resolveEntry (m : Manifest) (ctx : Context) (rel : String) (p : Pair) (e : Entry) :
    FileAction (Path × List Name) :=
  if m.lookup rel = none ∧ rel = Manifest.fileName then pure (p.dest, [])
  else do
    match ← look fun fs => effective fs ctx (m.lookup rel) p.dest with
    | none => pure (p.dest, [])
    | some (action, dest) => handle ctx p.source action dest e

lemma materializeVisit_eq (m : Manifest) (ctx : Context) (dest : Path)
    (h : fs.entryAt (sourceAt root (n :: above)) = .ok e) :
    materializeVisit m ctx root ⟨sourceAt root (n :: above), dest⟩ fs =
      mapFailure (blameEntry ⟨sourceAt root (n :: above), dest⟩)
        (resolveEntry m ctx (Path.text ⟨.relative, n :: above⟩)
          ⟨sourceAt root (n :: above), dest⟩ e) fs := by
  rw [materializeVisit, if_neg (sourceAt_ne_root root n above), mapFailure, mapFailure,
    visitEntry, bind_of_ok (ask_of_ok h), pathBelow_sourceAt, settle_ok,
    bind_of_ok (pure_apply _ fs)]
  rfl

lemma resolveEntry_of_none {rel : String} {p : Pair}
    (h : effective fs ctx (m.lookup rel) p.dest = .ok none) :
    resolveEntry m ctx rel p e fs = (.ok (p.dest, []), fs) := by
  rw [resolveEntry]
  by_cases hm : m.lookup rel = none ∧ rel = Manifest.fileName
  · rw [if_pos hm]
    rfl
  · have hlook : look (fun fs => effective fs ctx (m.lookup rel) p.dest) fs = (.ok none, fs) := by
      rw [look, h]
    rw [if_neg hm, bind_of_ok hlook]
    rfl

lemma resolveEntry_of_some {rel : String} {p : Pair} {action : Action} {q : Path}
    (hm : ¬ (m.lookup rel = none ∧ rel = Manifest.fileName))
    (h : effective fs ctx (m.lookup rel) p.dest = .ok (some (action, q))) :
    resolveEntry m ctx rel p e fs = handle ctx p.source action q e fs := by
  have hlook : look (fun fs => effective fs ctx (m.lookup rel) p.dest) fs =
      (.ok (some (action, q)), fs) := by
    rw [look, h]
  rw [resolveEntry, if_neg hm, bind_of_ok hlook]

lemma fails_resolveEntry {rel : String} {p : Pair} {d : Failure}
    (hm : ¬ (m.lookup rel = none ∧ rel = Manifest.fileName))
    (h : effective fs ctx (m.lookup rel) p.dest = .error d) :
    Fails (resolveEntry m ctx rel p e fs) := by
  rw [resolveEntry, if_neg hm]
  apply fails_bind_left
  rw [look, h]
  exact ⟨d, rfl⟩

lemma decision_follows (hn : isEntryName n.1 = true) (out : Path) :
    Follows (decision m ctx root fs n above)
      (fun chosen => (sourceAt root (n :: above)).byteLength ≤ pathLimit ∧ ∀ e,
        match chosen with
        | none => resolveEntry m ctx (Path.text ⟨.relative, n :: above⟩)
            ⟨sourceAt root (n :: above), out.child n⟩ e fs = (.ok (out.child n, []), fs)
        | some (action, k) => isEntryName k.1 = true ∧
            resolveEntry m ctx (Path.text ⟨.relative, n :: above⟩)
              ⟨sourceAt root (n :: above), out.child n⟩ e fs =
              handle ctx (sourceAt root (n :: above)) action (out.child k) e fs)
      ((sourceAt root (n :: above)).byteLength ≤ pathLimit → ∀ e,
        Fails (resolveEntry m ctx (Path.text ⟨.relative, n :: above⟩)
          ⟨sourceAt root (n :: above), out.child n⟩ e fs) ∨
        ∃ action k, k.1 ≠ ".." ∧ isEntryName k.1 = false ∧
          resolveEntry m ctx (Path.text ⟨.relative, n :: above⟩)
            ⟨sourceAt root (n :: above), out.child n⟩ e fs =
            handle ctx (sourceAt root (n :: above)) action (out.child k) e fs) := by
  rw [decision]
  by_cases hl : pathLimit < (sourceAt root (n :: above)).byteLength
  · simp only [hl, if_true]
    exact fun h => absurd hl (Nat.not_lt.mpr h)
  simp only [hl, if_false]
  by_cases hm : m.lookup (Path.text ⟨.relative, n :: above⟩) = none ∧
      Path.text ⟨.relative, n :: above⟩ = Manifest.fileName
  · rw [if_pos hm]
    refine ⟨Nat.not_lt.mp hl, fun e => ?_⟩
    simp only [resolveEntry, if_pos hm]
    rfl
  rw [if_neg hm]
  refine (naming_follows fs ctx out hn _).imp (fun chosen hc => ⟨Nat.not_lt.mp hl, fun e => ?_⟩)
    (fun hbad _ e => ?_)
  · obtain ⟨heff, hname⟩ := hc
    cases chosen with
    | none => exact resolveEntry_of_none heff
    | some c => exact ⟨hname c rfl, resolveEntry_of_some hm heff⟩
  · rcases hbad with ⟨d, heff⟩ | ⟨action, k, heff, hup, hk⟩
    · exact .inl (fails_resolveEntry hm heff)
    · exact .inr ⟨action, k, hup, hk, resolveEntry_of_some hm heff⟩

lemma handle_of_leaf {source : Path} {action : Action} (hdir : e ≠ .directory)
    (hmake : action ≠ .make ∨ ∀ bytes mode, e ≠ .file bytes mode) :
    handle ctx source action dest e = copyEntry ⟨source, dest⟩ e := by
  cases e with
  | directory => exact absurd rfl hdir
  | link | pipe => rfl
  | file bytes mode =>
    rcases hmake with hmake | hmake
    · rw [handle, if_neg hmake]
      rfl
    · exact absurd rfl (hmake bytes mode)

lemma handle_of_descent {source : Path} {action : Action} (h : action ≠ .copy) :
    handle ctx source action dest .directory = copyEntry ⟨source, dest⟩ .directory := by
  rw [handle, if_neg h]
  rfl

lemma handle_cases (ctx : Context) (source : Path) (action : Action) (dest : Path) (e : Entry) :
    handle ctx source action dest e = copyEntry ⟨source, dest⟩ e ∨
      action = .copy ∧ e = .directory ∨ action = .make ∧ ∃ bytes mode, e = .file bytes mode := by
  by_cases hdir : e = .directory
  · subst hdir
    by_cases hc : action = .copy
    · exact .inr (.inl ⟨hc, rfl⟩)
    · exact .inl (handle_of_descent hc)
  by_cases hmake : action ≠ .make ∨ ∀ bytes mode, e ≠ .file bytes mode
  · exact .inl (handle_of_leaf hdir hmake)
  · exact .inr (.inr (by simpa using hmake))

lemma fails_handle_of_refused {source : Path} {action : Action} {r : Refusal}
    (hr : r ≠ .noEntry) (h : ∀ q, fs.find q dest = .error r) :
    Fails (handle ctx source action dest e fs) := by
  rcases handle_cases ctx source action dest e with
    hcopy | ⟨rfl, rfl⟩ | ⟨rfl, bytes, mode, rfl⟩
  · rw [hcopy]
    exact fails_copyEntry_of_refused hr h e
  · refine fails_bind_left (fails_run ?_) _
    refine fails_mapFailure (fails_bind fun e fs' he => ?_) _
    obtain ⟨rfl, -⟩ := ask_state he
    have hcopy := fails_copyEntry_of_refused (p := ⟨source, dest⟩) hr h e
    cases e <;> exact hcopy
  · apply fails_bind
    intro u fs' hroom
    obtain rfl := makeRoom_of_refused h u fs' hroom
    exact fails_bind_left (fails_expandInto h ctx) _

end

section

variable {see : Forest → FileSystem} {out src : Path} {loc sloc : Location} {acc f : Forest}
  {k n : Name} {t : Tree}

lemma filled_follows (w : Window see out loc) (s : Source (see .nil) loc src sloc f)
    (hacc : acc.Proper) {bytes : ByteArray} {mode : Nat}
    (ht : f.find? n.1 = some (.file bytes mode)) (hl : (src.child n).byteLength ≤ pathLimit)
    (hk : isEntryName k.1 = true) (hk' : (out.child k).byteLength ≤ pathLimit)
    (hd : (see acc).get? (k.1 :: loc) ≠ some .directory) (ctx : Context) :
    Follows (filled (see (acc.put k (.file ByteArray.empty newFileMode))) ctx bytes)
      (fun content => handle ctx (src.child n) .make (out.child k) (.file bytes mode) (see acc) =
        (.ok (out.child k, []), see (acc.put k (.file content mode))))
      (Fails (handle ctx (src.child n) .make (out.child k) (.file bytes mode) (see acc))) := by
  have hplace := w.place hacc hk hk'
  have hshows := w.shows (k := k) s hacc ht hl
  have hleaf (content : ByteArray) (mode : Nat) :
      (see acc).replace (k.1 :: loc) (.file content mode) =
        see (acc.put k (.file content mode)) :=
    w.replace (t := .file content mode) hacc hk hd (by simp [Tree.entry]) (by simp [Tree.entry])
  have hroom := makeRoom_of_leaf hplace hd (w.get?_child_ne hacc)
  have hexp := expandInto_eq hplace hshows hd ctx
  rw [hleaf] at hexp
  rw [filled]
  cases hx : expandBytes (see (acc.put k (.file ByteArray.empty newFileMode))) ctx bytes with
  | error d =>
    rw [hx] at hexp
    apply fails_bind
    intro u fs hcleared
    rw [hroom] at hcleared
    cases hcleared
    exact fails_bind_left hexp _
  | ok text =>
    simp only [hx] at hexp
    have hmode := copyMode_of_file (hplace.replace (.file text.toUTF8 newFileMode))
      (hshows.agrees (agrees_replace _ _ _)) (hplace.get?_replace hd _)
    rw [hplace.set_replace hd (by simp) (by simp)] at hmode
    show _ = (Except.ok (out.child k, []), see (acc.put k (.file text.toUTF8 mode)))
    rw [← hleaf]
    exact (bind_of_ok hroom _).trans
      ((bind_of_ok hexp _).trans (bind_of_ok hmode _))

lemma made_file_follows (w : Window see out loc) (s : Source (see .nil) loc src sloc f)
    (hacc : acc.Proper) {bytes : ByteArray} {mode : Nat}
    (ht : f.find? n.1 = some (.file bytes mode)) (hl : (src.child n).byteLength ≤ pathLimit)
    (hk : isEntryName k.1 = true) (ctx : Context) :
    Follows (do
        Pair.check ⟨src.child n, out.child k⟩
        overLeaf (acc.find? k.1)
        let content ← filled (see (acc.put k (.file ByteArray.empty newFileMode))) ctx bytes
        pure (acc.put k (.file content mode)))
      (fun acc' => acc'.Proper ∧ handle ctx (src.child n) .make (out.child k) (.file bytes mode)
        (see acc) = (.ok (out.child k, []), see acc'))
      (Fails (handle ctx (src.child n) .make (out.child k) (.file bytes mode) (see acc))) := by
  apply Follows.bind (check_follows _)
  · intro _ hfit
    apply Follows.bind (overLeaf_follows (w.get?_child hacc ▸ w.get?_child_ne hacc))
    · intro _ hold
      rw [← w.get?_child hacc] at hold
      refine Follows.bind (filled_follows w s hacc ht hl hk hfit.2 hold ctx)
        (fun content hdone => ?_) id
      exact ⟨hacc.put hk trivial, hdone⟩
    · intro hold
      rw [← w.get?_child hacc] at hold
      exact fails_bind_left
        (makeRoom_directory ((w.place hacc hk hfit.2).denotes _ (.refl _ _)) hold) _
  · intro h
    obtain ⟨r, hr, hq⟩ := w.refused (n := k) hacc ((isEntryName_iff k).mp hk).1
      fun hk' => h ⟨hl, hk'.2⟩
    exact fails_handle_of_refused hr hq

lemma made_copy_follows (w : Window see out loc) (s : Source (see .nil) loc src sloc f)
    (hacc : acc.Proper) (ht : f.find? n.1 = some t) (hl : (src.child n).byteLength ≤ pathLimit)
    (hk : isEntryName k.1 = true) (ctx : Context) {action : Action}
    (hcopy : t.entry = .directory → action = .copy)
    (hmake : action ≠ .make ∨ ∀ bytes mode, t.entry ≠ .file bytes mode) :
    Follows (do
        let u ← t.copied ⟨src.child n, out.child k⟩ (acc.find? k.1)
        pure (acc.put k u))
      (fun acc' => acc'.Proper ∧ handle ctx (src.child n) action (out.child k) t.entry (see acc) =
        (.ok (out.child k, []), see acc'))
      (Fails (handle ctx (src.child n) action (out.child k) t.entry (see acc))) := by
  by_cases hdir : t.entry = .directory
  · rw [hdir, hcopy hdir]
    apply Follows.bind (Tree.copied_performs t w s hacc ht hk)
    · intro u hu
      have hrun := (hu.2 []).trans (run_nil copyVisit (see (acc.put k u)))
      exact ⟨hacc.put hk hu.1, bind_of_ok hrun _⟩
    · intro hfail
      exact fails_bind_left (hfail []) _
  · rw [handle_of_leaf hdir hmake]
    refine Follows.bind (copied_leaf w s hacc ht hk hdir) (fun u hu => ?_) (fun h => h hl)
    exact ⟨hacc.put hk hu.1, hu.2.2⟩

end

end Walk

open Walk FileSystem Attempt FileAction

mutual

lemma Tree.made_performs (t : Tree) (m : Manifest) (ctx : Context) (root : Path)
    {see : Forest → FileSystem} {out : Path} {loc sloc : Location} {acc f : Forest}
    {above : List Name} {n : Name} (w : Window see out loc)
    (s : Source (see .nil) loc (sourceAt root above) sloc f) (hacc : acc.Proper)
    (ht : f.find? n.1 = some t) :
    Performs (materializeVisit m ctx root) [⟨sourceAt root (n :: above), out.child n⟩] (see acc)
      (t.made m ctx root see above out n acc) Forest.Proper see := by
  have hvisit (hl : (sourceAt root (n :: above)).byteLength ≤ pathLimit) :=
    materializeVisit_eq m ctx (out.child n) (entryAt_child w s hacc ht hl)
  have hfails (h : (sourceAt root (n :: above)).byteLength ≤ pathLimit →
      Fails (resolveEntry m ctx (Path.text ⟨.relative, n :: above⟩)
        ⟨sourceAt root (n :: above), out.child n⟩ t.entry (see acc))) (rest : List Pair) :
      Fails (run (materializeVisit m ctx root)
        (⟨sourceAt root (n :: above), out.child n⟩ :: rest) (see acc)) := by
    apply fails_run
    by_cases hl : (sourceAt root (n :: above)).byteLength ≤ pathLimit
    · rw [hvisit hl]
      exact fails_mapFailure (h hl) _
    · have hentry := fails_entryAt w s hacc ht hl
      rw [child_sourceAt] at hentry
      exact fails_materializeVisit hentry
  rw [Tree.made]
  refine Follows.bind (decision_follows (s.isEntryName ht) out) (fun chosen hc => ?_)
    (fun hbad => hfails fun hl => ?_)
  · obtain ⟨hl, hc⟩ := hc
    rcases chosen with _ | ⟨action, k⟩
    · have hskip := (hvisit hl).trans (mapFailure_of_ok (hc t.entry) _)
      exact Performs.of_visit hskip hl (performs_pure hacc rfl)
    obtain ⟨hk, hdo⟩ := hc t.entry
    rw [hdo] at hfails
    have hok {names : List Name} {fs : FileSystem}
        (h : handle ctx (sourceAt root (n :: above)) action (out.child k) t.entry (see acc) =
          (.ok (out.child k, names), fs)) :=
      (hvisit hl).trans (mapFailure_of_ok (hdo.trans h) _)
    -- What is not descended into takes one visit.
    have hdone {r : Except Stop Forest} (h : Follows r
        (fun acc' => acc'.Proper ∧ handle ctx (sourceAt root (n :: above)) action (out.child k)
          t.entry (see acc) = (.ok (out.child k, []), see acc'))
        (Fails (handle ctx (sourceAt root (n :: above)) action (out.child k) t.entry (see acc)))) :
        Performs (materializeVisit m ctx root) [⟨sourceAt root (n :: above), out.child n⟩]
          (see acc) r Forest.Proper see :=
      h.imp (fun acc' ha => Performs.of_visit (hok ha.2) hl (performs_pure ha.1 rfl))
        (fun h => hfails fun _ => h)
    have hcopied (hcopy : t.entry = .directory → action = .copy)
        (hmake : action ≠ .make ∨ ∀ bytes mode, t.entry ≠ .file bytes mode) :=
      hdone (made_copy_follows w s hacc ht hl hk ctx hcopy hmake)
    cases t with
    | link target => exact hcopied (by simp [Tree.entry]) (.inr (by simp [Tree.entry]))
    | pipe => exact hcopied (by simp [Tree.entry]) (.inr (by simp [Tree.entry]))
    | file bytes mode =>
      by_cases hmake : action = .make
      · subst hmake
        simp only [if_true]
        exact hdone (made_file_follows w s hacc ht hl hk ctx)
      · simp only [if_neg hmake]
        exact hcopied (by simp [Tree.entry]) (.inl hmake)
    | directory g =>
      by_cases hcopy : action = .copy
      · subst hcopy
        simp only [if_true]
        exact hcopied (fun _ => rfl) (.inl (by simp))
      · have hopen : handle ctx (sourceAt root (n :: above)) action (out.child k)
            (Tree.directory g).entry = _ := handle_of_descent hcopy
        rw [hopen] at hok hfails
        simp only [if_neg hcopy]
        refine Follows.bind (check_follows _) (fun _ hfit => ?_) (fun h => hfails fun hl => ?_)
        · refine Follows.bind (copyEntry_directory w s hacc ht hfit.1 hk hfit.2)
            (fun inside hin => ?_) (fun hfail => hfails fun _ => hfail)
          apply Performs.of_visit (hok hin.2) hl
          exact Performs.map (Forest.made_performs g m ctx root (w.inner hacc hk hfit.2)
            (w.innerSource s hacc hk ht hfit.1) hin.1 (s.sorted.find? ht) fun _ _ h => h)
            (fun _ h => hacc.put hk h) fun _ => rfl
        · exact fails_copyEntry w hacc ((isEntryName_iff k).mp hk).1 (fun hk' => h ⟨hl, hk'.2⟩)
            .directory
  · rcases hbad hl t.entry with hbad | ⟨action, k, hup, hk, heq⟩
    · exact hbad
    · obtain ⟨r, hr, hq⟩ := w.refused (n := k) hacc hup fun h => by simp [hk] at h
      rw [heq]
      exact fails_handle_of_refused hr hq

lemma Forest.made_performs (g : Forest) (m : Manifest) (ctx : Context) (root : Path)
    {see : Forest → FileSystem} {out : Path} {loc sloc : Location} {acc f : Forest}
    {above : List Name} (w : Window see out loc)
    (s : Source (see .nil) loc (sourceAt root above) sloc f) (hacc : acc.Proper) (hg : g.Sorted)
    (hf : ∀ k t, g.find? k = some t → f.find? k = some t) :
    Performs (materializeVisit m ctx root)
      (g.names.map (Pair.child ⟨sourceAt root above, out⟩ out)) (see acc)
      (g.made m ctx root see above out acc) Forest.Proper see := by
  cases g with
  | nil => exact performs_pure hacc rfl
  | cons n t rest =>
    have ht : f.find? n.1 = some t := hf n.1 t (Forest.find?_cons_self n t rest)
    have hf' : ∀ k u, rest.find? k = some u → f.find? k = some u :=
      fun k u hu => hf k u (hg.find?_rest hu)
    apply Performs.cons (Tree.made_performs t m ctx root w s hacc ht)
    intro acc' hacc'
    exact Forest.made_performs rest m ctx root w s hacc' hg.2.2 hf'

end

end Scaffold
