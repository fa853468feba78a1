import Scaffold.Proofs.Walk.Repeating

namespace Scaffold

namespace Walk

open Attempt FileAction FileSystem Scaffold.Expr

lemma materialize_settled {m : Manifest} {ctx : Context} {root dest : Path} {fs fs' : FileSystem}
    {D T : Location} {f : Forest} {see : Forest → FileSystem}
    (hrep : Repeatable m ctx root dest fs D) (w : Window see dest D)
    (s : Source (see .nil) D root T f)
    (hvisit : materializeVisit m ctx root ⟨root, dest⟩ fs = (.ok (dest, f.names), see .nil))
    (hrun : materialize m ctx root dest fs = (.ok (), fs')) :
    materialize m ctx root dest fs' = (.ok (), fs') := by
  have hlen : root.byteLength ≤ pathLimit := (find_eq_walk s.leads).2.1
  have e : Enters m ctx root dest fs D see [] [] D T f .nil :=
    ⟨w, s, trivial, List.suffix_rfl, .auto, .root, by simp⟩
  have hmakes (acc : Forest) (hacc : acc.Proper) : Performs (materializeVisit m ctx root)
      (f.names.map (Pair.child ⟨sourceAt root [], dest⟩ dest)) (see acc)
      (f.made m ctx root see [] dest acc) Forest.Proper see :=
    f.made_performs m ctx root w s hacc s.sorted fun _ _ h => h
  have hrepeats : Stays (f.made m ctx root see [] dest .nil) fun g =>
      Repeats (fun k => ∃ n ∈ f.names, Goes m ctx root dest fs [] [] n k) see dest D D .nil g
        fun see' h => f.made m ctx root see' [] dest h :=
    f.made_again hrep e s.sorted (fun _ _ h => h)
      (fun q s h => .next hvisit (by rwa [List.append_nil])) fun _ _ _ _ => rfl
  have hfirst := hmakes .nil trivial
  rw [materialize, run_of_ok hvisit hlen] at hrun
  cases hg : f.made m ctx root see [] dest .nil with
  | error stop =>
    rw [hg] at hfirst hrepeats
    obtain rfl : stop = .failure := hrepeats
    obtain ⟨e, he⟩ := hfirst []
    cases (congrArg Prod.fst hrun).symm.trans he
  | ok g =>
    rw [hg] at hfirst hrepeats
    obtain ⟨hproper, hfirst⟩ := hfirst
    obtain rfl : fs' = see g :=
      congrArg Prod.snd (hrun.symm.trans ((hfirst []).trans (run_nil _ _)))
    have hsettled : f.made m ctx root see [] dest g = .ok g :=
      hrepeats.again see g ⟨w, hproper, .refl _, .refl _ _, fun _ _ => rfl⟩
    have hsecond := hmakes g hproper
    rw [hsettled] at hsecond
    -- The second time both directories are found with all that has been made.
    have hext := w.extends (w.agrees g hproper) (w.holds g hproper).get?_self
    have s' : Source (see g) D root T f := ⟨s.leads.extends hext,
      s.holds.agrees (w.agrees g hproper) s.apart s.apart', s.sorted, s.apart, s.apart'⟩
    have hvisit' := materializeVisit_of_opened m ctx s'.leads
      (makeDirectories_of_leads (w.leads.extends hext)) s'
    rw [materialize, run_of_ok hvisit' hlen]
    exact (hsecond.2 []).trans (run_nil _ _)

theorem materialize_again (m : Manifest) (ctx : Context) (root dest : Path) (fs fs' : FileSystem)
    (T : Location) (hroot : fs.Leads root T) (hdest : fs.Absent dest)
    (hout : ∀ D, fs.Missing dest D → ¬ T <:+ D)
    (hrep : ∀ D, fs.Missing dest D → Repeatable m ctx root dest fs D)
    (hrun : materialize m ctx root dest fs = (.ok (), fs')) :
    materialize m ctx root dest fs' = (.ok (), fs') := by
  rcases hdest.staged hroot hout with hfail | ⟨D, f, hD, hf, hs, w, s⟩
  · obtain ⟨e, he⟩ : Fails (materialize m ctx root dest fs) := fails_materialize hroot hfail
    rw [hrun] at he
    cases he
  · exact materialize_settled (hrep D hD) w s
      (materializeVisit_of_opened m ctx hroot hD.opened.1 s) hrun

lemma repeatable_of_bare {m : Manifest} (hm : ∀ rel, m.lookup rel = none) (ctx : Context)
    (root dest : Path) (fs : FileSystem) (D : Location) : Repeatable m ctx root dest fs D where
  apart n n' k above outs a a' h h' := by
    have hrules : ∀ rel rule, m.lookup rel = some rule → rule.name = "" := fun rel rule hrule => by
      cases (hm rel).symm.trans hrule
    have hnames := placed_names hrules h
    rw [placed_names hrules h'] at hnames
    exact (List.cons.inj hnames).1.symm
  overlooks s cs p h := by
    cases h with
    | name _ hrule =>
      rw [hm] at hrule
      cases hrule
    | content _ heff =>
      rw [hm] at heff
      cases heff

def againFiles : FileSystem :=
  (FileSystem.empty.set ["t"] .directory).set ["f", "t"]
    (.file "x$\x7b#exists('f')\x7d".toUTF8 0o755)

def againManifest : Manifest :=
  { Manifest.empty with files := .ofList [("f", ⟨.make, "$\x7bn\x7d"⟩)] }

def againContext : Context :=
  ⟨.ofList [("n", "g")], ⟨.relative, [⟨"t", rfl⟩]⟩⟩

def againDest : Path :=
  ⟨.relative, [⟨"p", rfl⟩, ⟨"o", rfl⟩]⟩

lemma againFiles_missing : againFiles.Missing againDest ["p", "o"] :=
  .child (p := ⟨.relative, [⟨"o", rfl⟩]⟩) (n := ⟨"p", rfl⟩) rfl rfl (.vacant rfl)

lemma againFiles_absent : againFiles.Absent againDest := by
  refine ⟨fun l e h => ?_, fun n names hn hup => ?_⟩
  · cases h
  · have hmem := hn.subset List.mem_cons_self
    simp only [againDest, List.mem_cons, List.not_mem_nil, or_false] at hmem
    rcases hmem with rfl | rfl <;> simp at hup

lemma againFiles_comes {d : Path} {n : Name} {above : List Name} {s : FileSystem}
    (h : Comes (materializeVisit againManifest againContext againContext.root)
      [⟨againContext.root, againDest⟩] againFiles ⟨sourceAt againContext.root (n :: above), d⟩ s) :
    n :: above = [⟨"f", rfl⟩] ∧ d = againDest.child ⟨"f", rfl⟩ ∧
      s = againFiles.openTo ["p", "o"] := by
  generalize hq : Pair.mk (sourceAt againContext.root (n :: above)) d = q at h
  have hopen : materializeVisit againManifest againContext againContext.root
      ⟨againContext.root, againDest⟩ againFiles =
        (.ok (againDest, [⟨"f", rfl⟩]), againFiles.openTo ["p", "o"]) := rfl
  have hmake : (materializeVisit againManifest againContext againContext.root
      ⟨againContext.root.child ⟨"f", rfl⟩, againDest.child ⟨"f", rfl⟩⟩
      (againFiles.openTo ["p", "o"])).1 = .ok (againDest.child ⟨"g", rfl⟩, []) := by
    decide +kernel
  cases h with
  | here => exact absurd (congrArg Pair.source hq) (sourceAt_ne_root _ n above)
  | next hv h =>
    rw [hopen] at hv
    cases hv
    cases h with
    | here =>
      have hsource := congrArg (fun p => p.source.names) hq
      exact ⟨List.append_cancel_right hsource, congrArg Pair.dest hq, rfl⟩
    | next hv h =>
      cases hmake.symm.trans (congrArg Prod.fst hv)
      cases h

lemma againFiles_effective {names : List Name} {d : Path} (hnames : names = [⟨"f", rfl⟩])
    (hd : d = againDest.child ⟨"f", rfl⟩) :
    effective (againFiles.openTo ["p", "o"]) againContext
        (againManifest.lookup (Path.text ⟨.relative, names⟩)) d =
      .ok (some (.make, againDest.child ⟨"g", rfl⟩)) := by
  subst hnames hd
  decide +kernel

lemma againFiles_placed {names outs : List Name} {a : Action}
    (h : Placed againManifest againContext againContext.root againDest againFiles names outs a) :
    a ≠ .copy ∧ (names ≠ [] → names = [⟨"f", rfl⟩]) := by
  induction h with
  | root => simp
  | verbatim _ ih => exact absurd rfl ih.1
  | entry _ _ hcomes _ heff =>
    obtain ⟨hnames, hd, rfl⟩ := againFiles_comes hcomes
    refine ⟨?_, fun _ => hnames⟩
    have hmake := congrArg (Option.map Prod.fst)
      (Except.ok.inj ((againFiles_effective hnames hd).symm.trans heff))
    rintro rfl
    cases hmake

lemma againFiles_repeatable :
    Repeatable againManifest againContext againContext.root againDest againFiles ["p", "o"] where
  apart n n' k above outs a a' h h' := by
    have hn := (againFiles_placed h).2 (by simp)
    have hn' := (againFiles_placed h').2 (by simp)
    exact (List.cons.inj (hn.trans hn'.symm)).1
  overlooks s cs p hexp hp := by
    obtain ⟨function, depth, hp⟩ := hp
    cases depth with
    | zero => cases hp
    | succ depth =>
      cases hexp with
      | name hcomes hrule =>
        obtain ⟨hnames, -, -⟩ := againFiles_comes hcomes
        rw [hnames] at hrule
        cases hrule
        cases hp
      | content hcomes heff hentry hempty htext =>
        obtain ⟨hnames, hd, rfl⟩ := againFiles_comes hcomes
        cases (againFiles_effective hnames hd).symm.trans heff
        obtain rfl := congrArg Prod.snd hempty
        have hfile : (againFiles.openTo ["p", "o"]).entryAt
            (sourceAt againContext.root [⟨"f", rfl⟩]) =
              .ok (.file "x$\x7b#exists('f')\x7d".toUTF8 0o755) := by
          decide +kernel
        rw [hnames] at hentry
        cases hfile.symm.trans hentry
        have hdecode : Text.Utf8.decode "x$\x7b#exists('f')\x7d".toUTF8 =
            .ok "x$\x7b#exists('f')\x7d" := by
          decide +kernel
        cases hdecode.symm.trans htext
        obtain ⟨-, rfl⟩ : function = .exists ∧ p = locate againContext ['f'] := by
          rcases List.mem_append.mp hp with hp | hp
          · exact Prod.mk.inj (List.mem_singleton.mp hp)
          · cases not_mem_afterwards_nil hp
        apply overlooks_of_find (l := ["f", "t"])
          (e := .file "x$\x7b#exists('f')\x7d".toUTF8 0o755)
        decide +kernel

theorem materialize_again_renamed :
    (materialize againManifest againContext againContext.root againDest againFiles).2.get?
      ["g", "p", "o"] = some (.file "x".toUTF8 0o755) ∧
    materialize againManifest againContext againContext.root againDest
        (materialize againManifest againContext againContext.root againDest againFiles).2 =
      (.ok (), (materialize againManifest againContext againContext.root againDest
        againFiles).2) := by
  have hrun : ((runWithin (materializeVisit againManifest againContext againContext.root) 2
      [⟨againContext.root, againDest⟩] againFiles).map fun r =>
        (decide (r.1 = .ok ()), r.2.get? ["g", "p", "o"])) =
      some (true, some (.file "x".toUTF8 0o755)) := by
    decide +kernel
  obtain ⟨r, hr, hresult⟩ := Option.map_eq_some_iff.mp hrun
  have hdone : materialize againManifest againContext againContext.root againDest againFiles = r :=
    run_of_runWithin hr
  have hok : r.1 = .ok () := of_decide_eq_true (congrArg Prod.fst hresult)
  rw [hdone]
  refine ⟨congrArg Prod.snd hresult, materialize_again againManifest againContext againContext.root
    againDest againFiles r.2 ["t"] rfl againFiles_absent
    (fun D hD => againFiles_missing.unique hD ▸ by decide)
    (fun D hD => againFiles_missing.unique hD ▸ againFiles_repeatable) ?_⟩
  rw [hdone, ← hok]

def upFiles : FileSystem :=
  ((FileSystem.empty.set ["t"] .directory).set ["t", "t"] .directory).set ["g", "t", "t"]
    (.file "new".toUTF8 0o644)

theorem materialize_again_up :
    upFiles.Leads ⟨.relative, [⟨"t", rfl⟩]⟩ ["t"] ∧
    upFiles.find .entry ⟨.relative, [⟨"..", rfl⟩, ⟨"x", rfl⟩]⟩ = .error .noEntry ∧
    (∀ D, Repeatable Manifest.empty ⟨∅, .here⟩ ⟨.relative, [⟨"t", rfl⟩]⟩
      ⟨.relative, [⟨"..", rfl⟩, ⟨"x", rfl⟩]⟩ upFiles D) ∧
    ∃ fs₁ fs₂, materialize Manifest.empty ⟨∅, .here⟩ ⟨.relative, [⟨"t", rfl⟩]⟩
        ⟨.relative, [⟨"..", rfl⟩, ⟨"x", rfl⟩]⟩ upFiles = (.ok (), fs₁) ∧
      fs₁.Leads ⟨.relative, [⟨"..", rfl⟩, ⟨"x", rfl⟩]⟩ [] ∧ fs₁.get? ["g"] = none ∧
      materialize Manifest.empty ⟨∅, .here⟩ ⟨.relative, [⟨"t", rfl⟩]⟩
        ⟨.relative, [⟨"..", rfl⟩, ⟨"x", rfl⟩]⟩ fs₁ = (.ok (), fs₂) ∧
      fs₂.get? ["g"] = some (.file "new".toUTF8 0o644) := by
  have hrun : ((runWithin (materializeVisit Manifest.empty ⟨∅, .here⟩ ⟨.relative, [⟨"t", rfl⟩]⟩) 3
      [⟨⟨.relative, [⟨"t", rfl⟩]⟩, ⟨.relative, [⟨"..", rfl⟩, ⟨"x", rfl⟩]⟩⟩] upFiles).bind
      fun r => (runWithin (materializeVisit Manifest.empty ⟨∅, .here⟩
        ⟨.relative, [⟨"t", rfl⟩]⟩) 4
        [⟨⟨.relative, [⟨"t", rfl⟩]⟩, ⟨.relative, [⟨"..", rfl⟩, ⟨"x", rfl⟩]⟩⟩] r.2).map
      fun r' => decide (r.1 = .ok () ∧ r.2.Leads ⟨.relative, [⟨"..", rfl⟩, ⟨"x", rfl⟩]⟩ [] ∧
        r.2.get? ["g"] = none ∧ r'.1 = .ok () ∧
        r'.2.get? ["g"] = some (.file "new".toUTF8 0o644))) = some true := by
    decide +kernel
  obtain ⟨⟨o, fs₁⟩, hfirst, hrest⟩ := Option.bind_eq_some_iff.mp hrun
  obtain ⟨⟨o', fs₂⟩, hsecond, hall⟩ := Option.map_eq_some_iff.mp hrest
  obtain ⟨rfl, hleads, hnone, rfl, hthere⟩ := of_decide_eq_true hall
  exact ⟨rfl, rfl, fun D => repeatable_of_bare (fun _ => rfl) _ _ _ _ D, fs₁, fs₂,
    run_of_runWithin hfirst, hleads, hnone, run_of_runWithin hsecond, hthere⟩

end Walk

end Scaffold
