import Scaffold.Proofs.Walk.Inside
import Scaffold.Proofs.Walk.Preserving
import Scaffold.Proofs.Walk.Recursion
import Scaffold.Proofs.Walk.Upward

/-! What stands on the work list while a template is made. An entry that waits there lies as far
below the destination as it lies below the template, and the directory that it is to come to has
been made. -/

namespace Scaffold

namespace Walk

open Attempt FileAction FileSystem

inductive Reached (visit : Visit) (work : List Pair) (fs : FileSystem) :
    List Pair → FileSystem → Prop
  | start : Reached visit work fs work fs
  | turn {p : Pair} {rest : List Pair} {fs₁ fs₂ : FileSystem} {out : Path} {names : List Name}
      (h : Reached visit work fs (p :: rest) fs₁) (hv : visit p fs₁ = (.ok (out, names), fs₂)) :
      Reached visit work fs (names.map (p.child out) ++ rest) fs₂

/-- The source lies below the template under names of entries, the destination below that of the
template under as many components, and both lists are written last first. -/
structure Aligned (root dest : Path) (ns ks : List Name) (p : Pair) : Prop where
  nonempty : ns ≠ []
  source : p.source = root.join ⟨.relative, ns⟩
  entries : ∀ n ∈ ns, isEntryName n.1 = true
  relative : pathBelow root p.source =
    .ok (String.intercalate "/" (ns.map Subtype.val).reverse)
  level : ks.length = ns.length
  dest : p.dest = dest.join ⟨.relative, ks⟩
  components : ∀ k ∈ ks, k.1 ≠ "" ∧ k.1 ≠ "." ∧ k.1 ≠ ".." ∧ '/' ∉ k.1.toList

structure Waiting (root dest : Path) (work : List Pair) (fs : FileSystem) : Prop where
  placed : ∀ p ∈ work, p = ⟨root, dest⟩ ∨
    (∃ ns ks, Aligned root dest ns ks p) ∧ ∃ l, fs.Leads p.dest.parent l
  nested : work.Pairwise fun p q => q.dest.parent.Above p.dest

section

variable {m : Manifest} {ctx : Context} {root dest out q : Path} {p : Pair} {n k : Name}
  {ns ks names : List Name} {fs fs' s : FileSystem} {work rest : List Pair} {visit : Visit}
  {rule : Option FileRule} {action : Action}

lemma Reached.run_eq (h : Reached visit work fs rest fs') (ho : Orderly visit) :
    run visit work fs = run visit rest fs' := by
  induction h with
  | start => rfl
  | turn _ hv ih => rw [ih, run_of_ok hv (ho.short hv)]

lemma component_of_ne_up (hup : n.1 ≠ "..") :
    n.1 ≠ "" ∧ n.1 ≠ "." ∧ n.1 ≠ ".." ∧ '/' ∉ n.1.toList := by
  obtain ⟨hempty, hdot, hslash⟩ := (Path.isName_iff n.1).mp n.2
  exact ⟨hempty, hdot, hup, hslash⟩

lemma aligned_sourceAt (hns : ∀ n ∈ ns, isEntryName n.1 = true) (hne : ns ≠ [])
    (hlevel : ks.length = ns.length) (hks : ∀ k ∈ ks, k.1 ≠ "..") :
    Aligned root dest ns ks ⟨sourceAt root ns, sourceAt dest ks⟩ where
  nonempty := hne
  source := rfl
  entries := hns
  relative := by
    have hhere : (⟨.relative, ns⟩ : Path) ≠ Path.here := by simpa [Path.here] using hne
    rw [pathBelow_sourceAt, Path.text, if_neg hhere, Path.anchorText, Path.steps,
      String.empty_append]
  level := hlevel
  dest := rfl
  components k hk := component_of_ne_up (hks k hk)

lemma Aligned.eq (h : Aligned root dest ns ks p) : p = ⟨sourceAt root ns, sourceAt dest ks⟩ := by
  obtain ⟨source, out⟩ := p
  obtain rfl : source = sourceAt root ns := h.source
  obtain rfl : out = sourceAt dest ks := h.dest
  rfl

lemma Aligned.source_ne (h : Aligned root dest ns ks p) : p.source ≠ root := by
  obtain ⟨n, above, rfl⟩ := List.exists_cons_of_ne_nil h.nonempty
  rw [h.eq]
  exact sourceAt_ne_root root n above

lemma Aligned.exists_last (h : Aligned root dest ns ks p) :
    ∃ k outs, ks = k :: outs ∧ k.1 ≠ ".." ∧ p.dest = (sourceAt dest outs).child k := by
  cases ks with
  | nil => exact absurd (List.length_eq_zero_iff.mp h.level.symm) h.nonempty
  | cons k outs =>
    exact ⟨k, outs, rfl, (h.components k List.mem_cons_self).2.2.1, congrArg Pair.dest h.eq⟩

lemma Aligned.renamed (h : Aligned root dest ns ks p) (hk : k.1 ≠ "..") :
    Aligned root dest ns (k :: ks.tail) ⟨p.source, p.dest.parent.child k⟩ := by
  obtain ⟨j, outs, rfl, -, -⟩ := h.exists_last
  have hlevel : (k :: outs).length = ns.length := h.level
  have houts : ∀ c ∈ k :: outs, c.1 ≠ ".." :=
    List.forall_mem_cons.mpr ⟨hk, fun c hc => (h.components c (List.mem_cons_of_mem j hc)).2.2.1⟩
  rw [h.eq]
  exact aligned_sourceAt h.entries h.nonempty hlevel houts

lemma Aligned.child (h : Aligned root dest ns ks p) (hn : isEntryName n.1 = true) :
    Aligned root dest (n :: ns) (n :: ks) (p.child p.dest n) := by
  have hlevel : (n :: ks).length = (n :: ns).length := congrArg (· + 1) h.level
  have hks : ∀ c ∈ n :: ks, c.1 ≠ ".." := List.forall_mem_cons.mpr
    ⟨((isEntryName_iff n).mp hn).1, fun c hc => (h.components c hc).2.2.1⟩
  rw [h.eq]
  exact aligned_sourceAt (List.forall_mem_cons.mpr ⟨hn, h.entries⟩) (by simp) hlevel hks

lemma aligned_child_root (root dest : Path) (hn : isEntryName n.1 = true) :
    Aligned root dest [n] [n] (Pair.child ⟨root, dest⟩ dest n) :=
  aligned_sourceAt (List.forall_mem_singleton.mpr hn) (by simp) rfl
    (List.forall_mem_singleton.mpr ((isEntryName_iff n).mp hn).1)

lemma Aligned.effective (h : Aligned root dest ns ks p)
    (heff : effective s ctx rule p.dest = .ok (some (action, q))) :
    ∃ k : Name, q = p.dest.parent.child k ∧ Aligned root dest ns (k :: ks.tail) ⟨p.source, q⟩ := by
  obtain ⟨j, outs, -, hj, hdest⟩ := h.exists_last
  rw [hdest] at heff
  obtain ⟨k, hk, rfl⟩ := effective_place _ hj heff
  have hparent : sourceAt dest outs = p.dest.parent := by rw [hdest, Path.parent_child]
  rw [hparent]
  exact ⟨k, rfl, h.renamed hk⟩

lemma materializeVisit_eq_ok (h : materializeVisit m ctx root p fs = (.ok (out, names), fs')) :
    p.source = root ∧ openDirectory p.source p.dest fs = (.ok (out, names), fs') ∨
    p.source ≠ root ∧ (fs' = fs ∧ out = p.dest ∧ names = [] ∨
      ∃ rule action q e, effective fs ctx rule p.dest = .ok (some (action, q)) ∧
        handle ctx p.source action q e fs = (.ok (out, names), fs')) := by
  have hvisit := mapFailure_eq_ok h
  by_cases hroot : p.source = root
  · rw [if_pos hroot] at hvisit
    obtain ⟨b, fs₁, hask, hopen⟩ := bind_eq_ok hvisit
    rw [(ask_state hask).1] at hopen
    cases b with
    | false => cases hopen
    | true => exact .inl ⟨hroot, hopen⟩
  rw [if_neg hroot] at hvisit
  refine .inr ⟨hroot, ?_⟩
  obtain ⟨e, fs₁, hask, hrest⟩ := bind_eq_ok hvisit
  obtain ⟨rel, fs₂, hrel, hrest⟩ := bind_eq_ok hrest
  obtain rfl : fs₁ = fs := (ask_state hask).1
  obtain rfl : fs₁ = fs₂ := congrArg Prod.snd hrel
  by_cases hm : m.lookup rel = none ∧ rel = Manifest.fileName
  · rw [if_pos hm] at hrest
    cases hrest
    exact .inl ⟨rfl, rfl, rfl⟩
  rw [if_neg hm] at hrest
  obtain ⟨chosen, fs₃, hlook, hrest⟩ := bind_eq_ok hrest
  obtain rfl : fs₁ = fs₃ := congrArg Prod.snd hlook
  rcases chosen with _ | ⟨action, q⟩
  · cases hrest
    exact .inl ⟨rfl, rfl, rfl⟩
  · exact .inr ⟨_, action, q, e, congrArg Prod.fst hlook, hrest⟩

lemma visit_of_aligned (hp : p = ⟨root, dest⟩ ∨ ∃ ns ks, Aligned root dest ns ks p)
    (hv : materializeVisit m ctx root p fs = (.ok (out, names), fs')) :
    fs.Upholds fs' p.dest ∧ (∀ a : Path, a.Above p.dest → a.Above out) ∧
      ∀ n ∈ names, (∃ l, fs'.Leads out l) ∧ ∃ ns ks, Aligned root dest ns ks (p.child out n) := by
  rcases hp with rfl | ⟨ns, ks, ha⟩
  · obtain ⟨-, hopen⟩ := (materializeVisit_eq_ok hv).resolve_right fun h => h.1 rfl
    obtain ⟨rfl, hgrows, hleads, hnames⟩ := openDirectory_leaves hopen
    exact ⟨hgrows.upholds _, fun _ => id,
      fun n hn => ⟨hleads, [n], [n], aligned_child_root root out (hnames n hn)⟩⟩
  obtain ⟨-, ⟨rfl, rfl, rfl⟩ | ⟨rule, action, q, e, heff, hhandle⟩⟩ :=
    (materializeVisit_eq_ok hv).resolve_left fun h => ha.source_ne h.1
  · exact ⟨fun _ _ => id, fun _ => id, List.forall_mem_nil _⟩
  obtain ⟨j, outs, -, -, hdest⟩ := ha.exists_last
  obtain ⟨k, hq, hrenamed⟩ := ha.effective heff
  obtain ⟨rfl, hup⟩ := handle_upholds hhandle
  have habove (a : Path) (h : a.Above p.dest) : a.Above out := by
    rw [hdest] at h hq
    exact hq ▸ h.sibling k
  refine ⟨fun a h => hup a (habove a h), habove, fun n hn => ?_⟩
  rcases handle_children hhandle with rfl | hopen
  · cases hn
  · obtain ⟨-, -, hleads, hnames⟩ := openDirectory_leaves hopen
    exact ⟨hleads, _, _, hrenamed.child (hnames n hn)⟩

lemma Waiting.turn (h : Waiting root dest (p :: rest) fs)
    (hv : materializeVisit m ctx root p fs = (.ok (out, names), fs')) :
    Waiting root dest (names.map (p.child out) ++ rest) fs' := by
  obtain ⟨hp, hrest⟩ := List.forall_mem_cons.mp h.placed
  obtain ⟨hover, hnested⟩ := List.pairwise_cons.mp h.nested
  obtain ⟨hup, habove, hnames⟩ := visit_of_aligned (hp.imp id And.left) hv
  -- The children wait in what has just been opened, all others in directories above that.
  refine ⟨List.forall_mem_append.mpr ⟨List.forall_mem_map.mpr fun n hn => ?_, fun q hq => ?_⟩,
    List.pairwise_append.mpr ⟨?_, hnested, fun c hc q hq => ?_⟩⟩
  · exact .inr (hnames n hn).symm
  · exact (hrest q hq).imp id fun ⟨hq', hl⟩ => ⟨hq', hup _ (hover q hq) hl⟩
  · have hparent (n : Name) : out.Above (out.child n) := .child n
    exact List.pairwise_map.mpr (List.pairwise_of_forall fun n _ => hparent n)
  · obtain ⟨n, -, rfl⟩ := List.mem_map.mp hc
    exact (habove _ (hover q hq)).deeper n

lemma Reached.waiting (h : Reached (materializeVisit m ctx root) [⟨root, dest⟩] fs work fs') :
    Waiting root dest work fs' := by
  induction h with
  | start => exact ⟨fun p hp => .inl (List.mem_singleton.mp hp), List.pairwise_singleton _ _⟩
  | turn _ hv ih => exact ih.turn hv

/-- From any path to a template and to any destination, whenever the next pair is taken from the
work list, all pairs but the first one are entries below the template that wait as far below the
destination, in a directory that is there. A rule that renames one leaves it in that directory, and
no entry is taken for the root or found outside of it. -/
theorem reached_aligned
    (h : Reached (materializeVisit m ctx root) [⟨root, dest⟩] fs work fs') :
    materialize m ctx root dest fs = run (materializeVisit m ctx root) work fs' ∧
    (∀ p ∈ work, p = ⟨root, dest⟩ ∨
      p.source ≠ root ∧ fs'.isDirectory p.dest.parent = .ok true ∧
      ∃ ns ks, Aligned root dest ns ks p ∧
        ∀ s rule action q, effective s ctx rule p.dest = .ok (some (action, q)) →
          q.parent = p.dest.parent ∧ ∃ k, Aligned root dest ns (k :: ks.tail) ⟨p.source, q⟩) ∧
    ∀ q, (materialize m ctx root dest fs).1 ≠ .error (.outsideTemplate q) := by
  refine ⟨h.run_eq (materializeVisit_orderly m ctx root), fun p hp => ?_, fun q hq => ?_⟩
  · refine (h.waiting.placed p hp).imp id fun ⟨⟨ns, ks, ha⟩, l, hl⟩ => ?_
    refine ⟨ha.source_ne, hl.isDirectory, ns, ks, ha, fun s rule action q heff => ?_⟩
    obtain ⟨k, rfl, hk⟩ := ha.effective heff
    exact ⟨rfl, k, hk⟩
  · cases materialize_inside m ctx root dest fs _ hq

end

def pendingFiles : FileSystem :=
  ((((FileSystem.empty.set ["d"] .directory).set ["t"] .directory).set ["a", "t"] .directory).set
    ["f", "a", "t"] (.file "f".toUTF8 0o644)).set ["b", "t"] (.link "a")

def pendingManifest : Manifest :=
  { Manifest.empty with files := .ofList [("a", ⟨.auto, "$\x7bn\x7d"⟩)] }

def pendingVisit : Visit :=
  materializeVisit pendingManifest ⟨.ofList [("n", "x")], .here⟩ (Path.ofString "d/../t")

def pendingOpened : FileSystem :=
  (pendingVisit ⟨Path.ofString "d/../t", Path.ofString "o"⟩ pendingFiles).2

def pendingRenamed : FileSystem :=
  (pendingVisit ⟨Path.ofString "d/../t/a", Path.ofString "o/a"⟩ pendingOpened).2

theorem reached_aligned_renamed :
    Reached pendingVisit [⟨Path.ofString "d/../t", Path.ofString "o"⟩] pendingFiles
      [⟨Path.ofString "d/../t/a/f", Path.ofString "o/x/f"⟩,
        ⟨Path.ofString "d/../t/b", Path.ofString "o/b"⟩] pendingRenamed ∧
    pendingRenamed.isDirectory (Path.ofString "o/x/f").parent = .ok true := by
  have hopened : pendingVisit ⟨Path.ofString "d/../t", Path.ofString "o"⟩ pendingFiles =
      (.ok (Path.ofString "o", [⟨"a", rfl⟩, ⟨"b", rfl⟩]), pendingOpened) :=
    Prod.ext (by decide +kernel) (by rw [pendingOpened])
  have hrenamed : pendingVisit ⟨Path.ofString "d/../t/a", Path.ofString "o/a"⟩ pendingOpened =
      (.ok (Path.ofString "o/x", [⟨"f", rfl⟩]), pendingRenamed) :=
    Prod.ext (by decide +kernel) (by rw [pendingRenamed])
  have hentries : [⟨"a", rfl⟩, ⟨"b", rfl⟩].map (Pair.child
      ⟨Path.ofString "d/../t", Path.ofString "o"⟩ (Path.ofString "o")) ++ [] =
      [⟨Path.ofString "d/../t/a", Path.ofString "o/a"⟩,
        ⟨Path.ofString "d/../t/b", Path.ofString "o/b"⟩] := by
    decide +kernel
  have hinside : [⟨"f", rfl⟩].map (Pair.child
      ⟨Path.ofString "d/../t/a", Path.ofString "o/a"⟩ (Path.ofString "o/x")) =
      [⟨Path.ofString "d/../t/a/f", Path.ofString "o/x/f"⟩] := by
    decide +kernel
  have hfirst : Reached pendingVisit [⟨Path.ofString "d/../t", Path.ofString "o"⟩] pendingFiles
      [⟨Path.ofString "d/../t/a", Path.ofString "o/a"⟩,
        ⟨Path.ofString "d/../t/b", Path.ofString "o/b"⟩] pendingOpened := by
    rw [← hentries]
    exact .turn .start hopened
  have h := hfirst.turn hrenamed
  rw [hinside] at h
  refine ⟨h, ?_⟩
  rcases (reached_aligned h).2.1 _ List.mem_cons_self with hp | ⟨-, hparent, -⟩
  · exact absurd hp (by decide +kernel)
  · exact hparent

end Walk

end Scaffold
