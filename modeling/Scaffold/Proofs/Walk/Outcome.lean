import Scaffold.Proofs.Walk.Agreement
import Scaffold.Proofs.Walk.Colliding
import Scaffold.Proofs.Walk.Streaming

namespace Scaffold

namespace Walk

open Attempt FileAction FileSystem

lemma materialize_made (m : Manifest) (ctx : Context) {root dest : Path} {fs : FileSystem}
    {T D : Location} {f : Forest} (hroot : fs.Leads root T) (hD : fs.Missing dest D)
    (hf : fs.Holds T (.directory f)) (w : Window (fun g => g.writeTo (fs.openTo D) D) dest D)
    (s : Source (fs.openTo D) D root T f) :
    match f.made m ctx root (fun g => g.writeTo (fs.openTo D) D) [] dest .nil with
    | .ok g => materialize m ctx root dest fs = (.ok (), g.writeTo (fs.openTo D) D) ∧
        (g.writeTo (fs.openTo D) D).Holds D (.directory g) ∧
        ∀ l, ¬ D <:+ l → (g.writeTo (fs.openTo D) D).get? l =
          if l <:+ D then some .directory else fs.get? l
    | .error .failure => Fails (materialize m ctx root dest fs)
    | .error .astray => ∃ outs target, Brings m ctx root dest fs T outs (.link target) ∧
        Brings m ctx root dest fs T outs .directory := by
  have hmat := materialize_opened m ctx hroot hD s
  have hrun : Performs (materializeVisit m ctx root)
      (f.names.map (Pair.child ⟨sourceAt root [], dest⟩ dest)) (fs.openTo D)
      (f.made m ctx root (fun g => g.writeTo (fs.openTo D) D) [] dest .nil) Forest.Proper
      fun g => g.writeTo (fs.openTo D) D :=
    f.made_performs m ctx root w s trivial s.sorted fun _ _ h => h
  rcases hg : f.made m ctx root (fun g => g.writeTo (fs.openTo D) D) [] dest .nil with
    (_ | _) | g
  · rw [hg] at hrun
    dsimp only
    rw [hmat]
    exact hrun []
  · exact made_astray w s hf (materializeVisit_of_opened m ctx hroot hD.opened.1 s) hg
  · rw [hg] at hrun
    obtain ⟨hproper, hrest⟩ := hrun
    refine ⟨?_, w.holds g hproper, fun l hl => ?_⟩
    · rw [hmat]
      exact (hrest []).trans (run_nil _ _)
    · rw [← hD.opened.2.1.get?]
      exact (w.agrees g hproper).get? l hl

def met (visit : Visit) : Nat → List Pair → FileSystem → List (Pair × FileSystem)
  | 0, _, _ | _, [], _ => []
  | k + 1, p :: rest, fs => (p, fs) :: match visit p fs with
    | (.ok (out, names), fs') => met visit k (names.map (p.child out) ++ rest) fs'
    | (.error _, _) => []

lemma mem_met {visit : Visit} (ho : Orderly visit) {k : Nat} {work : List Pair}
    {fs t : FileSystem} {q : Pair} {r : Except Failure Unit × FileSystem}
    (hrun : runWithin visit k work fs = some r) (h : Comes visit work fs q t) :
    (q, t) ∈ met visit k work fs := by
  induction h generalizing k with
  | here p rest s =>
    cases k with
    | zero => cases hrun
    | succ k => exact List.mem_cons_self
  | next hv hq ih =>
    cases k with
    | zero => cases hrun
    | succ k =>
      rw [runWithin, hv] at hrun
      rw [met, hv]
      exact List.mem_cons_of_mem _ (ih ((if_pos (Path.length_lt (ho.short hv))).symm.trans hrun))

def sampleTemplate : Forest :=
  .cons ⟨"a", rfl⟩ (.directory (.cons ⟨"b", rfl⟩ (.file "x$\x7bn\x7d".toUTF8 0o755) .nil))
    (.cons ⟨"l", rfl⟩ (.link "/") (.cons ⟨"makemake.json", rfl⟩ (.link "m") .nil))

def sampleFiles : FileSystem :=
  sampleTemplate.writeTo (FileSystem.empty.set ["tree"] .directory) ["tree"]

def sampleManifest : Manifest :=
  { Manifest.empty with files := .ofList [("a/b", ⟨.make, "$\x7bn\x7db"⟩)] }

def sampleContext : Context :=
  ⟨.ofList [("n", "y")], .here⟩

def sampleRoot : Path :=
  ⟨.relative, [⟨"tree", rfl⟩]⟩

def sampleDest : Path :=
  ⟨.relative, [⟨"new", rfl⟩, ⟨"out", rfl⟩]⟩

def sampleOutcome : Forest :=
  .cons ⟨"a", rfl⟩ (.directory (.cons ⟨"yb", rfl⟩ (.file "xy".toUTF8 0o755) .nil))
    (.cons ⟨"l", rfl⟩ (.link "/") .nil)

def sampleFills (p : Pair) (s : FileSystem) : Bool :=
  match filling sampleManifest sampleContext sampleRoot p s with
  | none => true
  | some out =>
    match (makeRoom out >>= fun _ => change (·.writeFile · ByteArray.empty) out) s with
    | (.ok (), s') => s'.readFile p.source = .ok "x$\x7bn\x7d".toUTF8
    | (.error _, _) => true

lemma sample_looksAway :
    LooksAway sampleManifest sampleContext sampleRoot sampleDest sampleFiles := by
  have hrun : ((runWithin (materializeVisit sampleManifest sampleContext sampleRoot) 5
      [⟨sampleRoot, sampleDest⟩] sampleFiles).map fun _ => ()) = some () := by
    decide +kernel
  have hall : (met (materializeVisit sampleManifest sampleContext sampleRoot) 5
      [⟨sampleRoot, sampleDest⟩] sampleFiles).all (fun c => sampleFills c.1 c.2) = true := by
    decide +kernel
  have hdecode : Text.Utf8.decode "x$\x7bn\x7d".toUTF8 = .ok "x$\x7bn\x7d" := by
    decide +kernel
  obtain ⟨r, hr, -⟩ := Option.map_eq_some_iff.mp hrun
  rintro out s text f path ⟨hcomes, hfill, hempty, hread, hheard⟩ ⟨depth, hq⟩ -
  have hmet := mem_met (materializeVisit_orderly _ _ _) hr hcomes
  have hfills := List.all_eq_true.mp hall _ hmet
  simp only [sampleFills, hfill, hempty, hread, decide_eq_true_eq, Except.ok.injEq] at hfills
  subst hfills
  rw [Heard, hdecode] at hheard
  subst hheard
  cases depth with
  | zero => cases hq
  | succ depth =>
    rcases List.mem_append.mp hq with hq | hq
    · cases hq
    · cases Expr.not_mem_afterwards_nil hq

lemma sample_missing : sampleFiles.Missing sampleDest ["new", "out"] :=
  .child (p := ⟨.relative, [⟨"out", rfl⟩]⟩) (n := ⟨"new", rfl⟩) rfl rfl (.vacant rfl)

lemma sample_absent : sampleFiles.Absent sampleDest := by
  refine ⟨fun l e h => ?_, fun n names hn hup => ?_⟩
  · cases h
  · have hmem := hn.subset List.mem_cons_self
    simp only [sampleDest, List.mem_cons, List.not_mem_nil, or_false] at hmem
    rcases hmem with rfl | rfl <;> simp at hup

lemma sampleTemplate_sorted : sampleTemplate.Sorted :=
  ⟨by decide, ⟨by decide, trivial, trivial⟩, by decide, trivial, by decide, trivial, trivial⟩

lemma sampleFiles_holds : sampleFiles.Holds ["tree"] (.directory sampleTemplate) := by
  have hproper : sampleTemplate.Proper :=
    ⟨rfl, by decide, ⟨rfl, by decide, trivial, trivial⟩, rfl, by decide, trivial, rfl, by decide,
      trivial, trivial⟩
  have hempty : (FileSystem.empty.set ["tree"] .directory).Holds ["tree"] (.directory .nil) :=
    (Tree.holds_writeTo (.directory .nil) trivial rfl rfl).1
  exact (Forest.holds_writeTo hproper hempty).1

def sampleBuffering : Buffering where
  shown _ _ _ := "x".toUTF8
  heard _ := ""

end Walk

end Scaffold
