import Mathlib.Data.List.Lex
import Scaffold.Proofs.FileSystem.Listing
import Scaffold.Proofs.Walk.Raising

/-! The work list of a walk stands for the calls of a recursive walk that have not returned yet.
Both come to the same, and an entry at which the walk fails divides all that the walk has found into
what it has handled and what it leaves alone. -/

namespace Scaffold

namespace Walk

open Attempt FileAction FileSystem

abbrev Outcome := Option (Except Failure Unit × FileSystem)

def each (handle : Pair → FileSystem → Outcome) : List Pair → FileSystem → Outcome
  | [], fs => some (.ok (), fs)
  | p :: ps, fs =>
    match handle p fs with
    | some (.ok (), fs) => each handle ps fs
    | r => r

def recurse (visit : Visit) : Nat → Pair → FileSystem → Outcome
  | 0, _, _ => none
  | depth + 1, p, fs =>
    match visit p fs with
    | (.error e, fs) => some (.error e, fs)
    | (.ok (out, names), fs) => each (recurse visit depth) (names.map (p.child out)) fs

structure Turn where
  pair : Pair
  children : List Pair

inductive Turns (visit : Visit) :
    List Pair → FileSystem → List Turn → Except Failure Unit × FileSystem → Prop
  | done (fs : FileSystem) : Turns visit [] fs [] (.ok (), fs)
  | failed {p : Pair} {rest : List Pair} {fs fs' : FileSystem} {e : Failure}
      (h : visit p fs = (.error e, fs')) : Turns visit (p :: rest) fs [⟨p, []⟩] (.error e, fs')
  | next {p : Pair} {rest : List Pair} {fs fs' : FileSystem} {out : Path} {names : List Name}
      {log : List Turn} {r : Except Failure Unit × FileSystem}
      (h : visit p fs = (.ok (out, names), fs'))
      (ht : Turns visit (names.map (p.child out) ++ rest) fs' log r) :
      Turns visit (p :: rest) fs (⟨p, names.map (p.child out)⟩ :: log) r

def Before (p q : Pair) : Prop :=
  p.source.steps < q.source.steps

def Ahead (p q : Pair) : Prop :=
  ∀ ks, p.source.steps ++ ks < q.source.steps

def Within (p q : Pair) : Prop :=
  p.source.steps <+: q.source.steps

structure Orderly (visit : Visit) : Prop where
  short : ∀ {p fs out names fs'}, visit p fs = (.ok (out, names), fs') →
    p.source.byteLength ≤ pathLimit
  ascending : ∀ {p fs out names fs'}, visit p fs = (.ok (out, names), fs') →
    (names.map Subtype.val).Pairwise (· < ·)

section

variable {fs fs' : FileSystem} {p source dest out : Path} {names : List Name}

lemma list_ascending (h : fs.list p = .ok names) :
    (names.map Subtype.val).Pairwise (· < ·) := by
  rw [list] at h
  rcases hf : fs.find .target p with r | (⟨l, e⟩ | l)
  · rw [hf] at h
    cases h
  · rw [hf] at h
    cases e with
    | directory =>
      cases h
      rw [List.map_map]
      have hval : (fs.names l).attach.map
          (Subtype.val ∘ fun n => (⟨n.1, fs.isName_of_mem_names l n.1 n.2⟩ : Name)) =
            fs.names l := List.attach_map_subtype_val _
      rw [hval]
      exact fs.names_pairwise l
    | file | link | pipe => cases h
  · rw [hf] at h
    cases h

lemma openDirectory_ascending (h : openDirectory source dest fs = (.ok (out, names), fs')) :
    (names.map Subtype.val).Pairwise (· < ·) := by
  obtain ⟨_, fs₁, -, hask⟩ := bind_eq_ok h
  obtain ⟨ns, fs₂, hlist, hend⟩ := bind_eq_ok hask
  cases hend
  exact list_ascending (ask_state hlist).2

lemma copyVisit_orderly : Orderly copyVisit where
  short h := (copyVisit_children h).1
  ascending h := by
    obtain ⟨-, rfl | ⟨fs₁, hopen⟩⟩ := copyVisit_children h
    · exact List.Pairwise.nil
    · exact openDirectory_ascending hopen

lemma materializeVisit_orderly (m : Manifest) (ctx : Context) (root : Path) :
    Orderly (materializeVisit m ctx root) where
  short h := (materializeVisit_children h).1
  ascending h := by
    obtain ⟨-, rfl | ⟨dest, fs₁, hopen⟩⟩ := materializeVisit_children h
    · exact List.Pairwise.nil
    · exact openDirectory_ascending hopen

end

section

variable {visit : Visit} {work ps : List Pair} {p q w : Pair} {out : Path} {names : List Name}
  {fs : FileSystem} {log : List Turn} {r : Except Failure Unit × FileSystem}

lemma each_eq_run {handle : Pair → FileSystem → Outcome}
    (hp : ∀ p fs r, handle p fs = some r → run visit [p] fs = r)
    (hr : each handle ps fs = some r) : run visit ps fs = r := by
  induction ps generalizing fs with
  | nil =>
    cases hr
    exact run_nil visit fs
  | cons p ps ih =>
    rw [← List.singleton_append, run_append]
    rw [each] at hr
    cases hhandle : handle p fs with
    | none =>
      rw [hhandle] at hr
      cases hr
    | some s =>
      rw [hhandle] at hr
      have hfirst := hp p fs s hhandle
      obtain ⟨_ | _, fs'⟩ := s
      · cases hr
        exact bind_of_error hfirst _
      · rw [bind_of_ok hfirst]
        exact ih hr

lemma Orderly.recurse_eq_run (h : Orderly visit) {depth : Nat}
    (hr : recurse visit depth p fs = some r) : run visit [p] fs = r := by
  induction depth generalizing p fs r with
  | zero => cases hr
  | succ depth ih =>
    rw [recurse] at hr
    rcases hv : visit p fs with ⟨e | ⟨out, names⟩, fs'⟩
    · rw [hv] at hr
      cases hr
      exact run_of_error hv []
    · rw [hv] at hr
      rw [run_of_ok hv (h.short hv), List.append_nil]
      exact each_eq_run (fun _ _ _ => ih) hr

lemma exists_each {handle : Pair → FileSystem → Outcome}
    (hp : ∀ p ∈ ps, ∀ fs, ∃ r, handle p fs = some r) (fs : FileSystem) :
    ∃ r, each handle ps fs = some r := by
  induction ps generalizing fs with
  | nil => exact ⟨_, rfl⟩
  | cons p ps ih =>
    obtain ⟨⟨e | u, fs'⟩, hr⟩ := hp p List.mem_cons_self fs
    · exact ⟨(.error e, fs'), by rw [each, hr]⟩
    · rw [each, hr]
      exact ih (fun q hq => hp q (List.mem_cons_of_mem p hq)) fs'

lemma Orderly.exists_recurse (h : Orderly visit) {depth : Nat} (fs : FileSystem)
    (hl : pathLimit ≤ depth + p.source.names.length) :
    ∃ r, recurse visit (depth + 1) p fs = some r := by
  induction depth generalizing p fs with
  | zero =>
    rw [recurse]
    rcases hv : visit p fs with ⟨e | ⟨out, names⟩, fs'⟩
    · exact ⟨_, rfl⟩
    · have hlt := Path.length_lt (h.short hv)
      omega
  | succ depth ih =>
    rw [recurse]
    rcases hv : visit p fs with ⟨e | ⟨out, names⟩, fs'⟩
    · exact ⟨_, rfl⟩
    · refine exists_each (fun q hq fs => ?_) fs'
      obtain ⟨n, -, rfl⟩ := List.mem_map.mp hq
      apply ih
      simp only [Pair.child, Path.child, List.length_cons]
      omega

lemma Orderly.exists_turns (h : Orderly visit) (work : List Pair) (fs : FileSystem) :
    ∃ log, Turns visit work fs log (run visit work fs) := by
  induction work, fs using run.induct visit with
  | case1 fs =>
    rw [run_nil]
    exact ⟨_, .done fs⟩
  | case2 fs p rest e fs' hp =>
    rw [run_of_error hp]
    exact ⟨_, .failed hp⟩
  | case3 fs p rest out names fs' hp hl ih =>
    obtain ⟨log, hlog⟩ := ih
    rw [run_of_ok hp (h.short hp)]
    exact ⟨_, .next hp hlog⟩
  | case4 fs p rest out names fs' hp hl ih => exact absurd (Path.length_lt (h.short hp)) hl

lemma Turns.run_eq (ht : Turns visit work fs log r) (h : Orderly visit) :
    run visit work fs = r := by
  induction ht with
  | done fs => exact run_nil visit fs
  | failed hv => exact run_of_error hv _
  | next hv _ ih => exact (run_of_ok hv (h.short hv)).trans ih

lemma steps_child (p : Pair) (out : Path) (n : Name) :
    (p.child out n).source.steps = p.source.steps ++ [n.1] := by
  simp [Pair.child, Path.steps, Path.child]

lemma within_child (p : Pair) (out : Path) (n : Name) : Within p (p.child out n) := by
  rw [Within, steps_child]
  exact List.prefix_append _ _

lemma before_child (p : Pair) (out : Path) (n : Name) : Before p (p.child out n) := by
  have hlt : p.source.steps ++ [] < p.source.steps ++ [n.1] :=
    List.append_left_lt (List.nil_lt_cons n.1 [])
  rwa [List.append_nil, ← steps_child p out] at hlt

lemma Before.within (h : Before p w) (hw : Within w q) : Before p q := by
  obtain ⟨ks, hks⟩ := hw
  rw [Before, ← hks]
  exact List.Lex.append_right (· < ·) ks h

lemma Ahead.before (h : Ahead p q) : Before p q := by
  have hlt := h []
  rwa [List.append_nil] at hlt

lemma Ahead.within (h : Ahead p q) (hw : Within p w) : Before w q := by
  obtain ⟨ks, hks⟩ := hw
  rw [Before, ← hks]
  exact h ks

lemma Ahead.child (h : Ahead p q) (out : Path) (n : Name) : Ahead (p.child out n) q := by
  intro ks
  rw [steps_child, List.append_assoc]
  exact h (n.1 :: ks)

lemma ahead_of_lt (p : Pair) (out : Path) {m n : Name} (h : m.1 < n.1) :
    Ahead (p.child out m) (p.child out n) := by
  intro ks
  rw [steps_child, steps_child, List.append_assoc]
  exact List.append_left_lt (List.cons_lt_cons_iff.mpr (.inl h))

lemma children_ahead (p : Pair) (out : Path) (h : (names.map Subtype.val).Pairwise (· < ·)) :
    (names.map (p.child out)).Pairwise Ahead :=
  List.pairwise_map.mpr ((List.pairwise_map.mp h).imp (ahead_of_lt p out))

lemma next_ahead (h : (names.map Subtype.val).Pairwise (· < ·))
    (hw : (p :: work).Pairwise Ahead) : (names.map (p.child out) ++ work).Pairwise Ahead := by
  obtain ⟨hp, hwork⟩ := List.pairwise_cons.mp hw
  refine List.pairwise_append.mpr ⟨children_ahead p out h, hwork, fun c hc q hq => ?_⟩
  obtain ⟨n, -, rfl⟩ := List.mem_map.mp hc
  exact (hp q hq).child out n

lemma before_next (hw : (p :: work).Pairwise Ahead) (hq : q ∈ names.map (p.child out) ++ work) :
    Before p q := by
  rcases List.mem_append.mp hq with hq | hq
  · obtain ⟨n, -, rfl⟩ := List.mem_map.mp hq
    exact before_child p out n
  · exact ((List.pairwise_cons.mp hw).1 q hq).before

lemma Turns.within (ht : Turns visit work fs log r) (hq : q ∈ log.map Turn.pair) :
    ∃ w ∈ work, Within w q := by
  induction ht with
  | done fs => cases hq
  | failed hv =>
    obtain rfl := List.mem_singleton.mp hq
    exact ⟨_, List.mem_cons_self, List.prefix_rfl⟩
  | next hv _ ih =>
    rcases List.mem_cons.mp hq with rfl | hq
    · exact ⟨_, List.mem_cons_self, List.prefix_rfl⟩
    obtain ⟨w, hw, hwithin⟩ := ih hq
    rcases List.mem_append.mp hw with hw | hw
    · obtain ⟨n, -, rfl⟩ := List.mem_map.mp hw
      exact ⟨_, List.mem_cons_self, (within_child _ _ n).trans hwithin⟩
    · exact ⟨w, List.mem_cons_of_mem _ hw, hwithin⟩

lemma before_turns (hw : (p :: work).Pairwise Ahead)
    (ht : Turns visit (names.map (p.child out) ++ work) fs log r) (hq : q ∈ log.map Turn.pair) :
    Before p q := by
  obtain ⟨w, hmem, hwithin⟩ := ht.within hq
  exact (before_next hw hmem).within hwithin

lemma Turns.sorted (ht : Turns visit work fs log r) (h : Orderly visit)
    (hw : work.Pairwise Ahead) : (log.map Turn.pair).Pairwise Before := by
  induction ht with
  | done fs => exact List.Pairwise.nil
  | failed hv => exact List.pairwise_singleton _ _
  | next hv ht ih =>
    exact List.pairwise_cons.mpr
      ⟨fun q hq => before_turns hw ht hq, ih (next_ahead (h.ascending hv) hw)⟩

lemma Turns.children_sorted (ht : Turns visit work fs log r) (h : Orderly visit) {t : Turn}
    (hmem : t ∈ log) : t.children.Pairwise Before := by
  induction ht with
  | done fs => cases hmem
  | failed hv =>
    obtain rfl := List.mem_singleton.mp hmem
    exact List.Pairwise.nil
  | next hv _ ih =>
    rcases List.mem_cons.mp hmem with rfl | hmem
    · exact (children_ahead _ _ (h.ascending hv)).imp Ahead.before
    · exact ih hmem

def found (work : List Pair) (log : List Turn) : List Pair :=
  work ++ log.flatMap Turn.children

lemma mem_found_cons {t : Turn} :
    q ∈ found (p :: work) (t :: log) ↔ q = p ∨ q ∈ found (t.children ++ work) log := by
  simp only [found, List.cons_append, List.mem_cons, List.flatMap_cons, List.mem_append]
  tauto

lemma Turns.found_handled (ht : Turns visit work fs log r) (hr : r.1 = .ok ())
    (hq : q ∈ found work log) : q ∈ log.map Turn.pair := by
  induction ht with
  | done fs => cases hq
  | failed hv => cases hr
  | next hv _ ih =>
    rcases mem_found_cons.mp hq with rfl | hq
    · exact List.mem_cons_self
    · exact List.mem_cons_of_mem _ (ih hr hq)

lemma Turns.divided (ht : Turns visit work fs log r) (h : Orderly visit)
    (hw : work.Pairwise Ahead) {e : Failure} (hr : r.1 = .error e) :
    ∃ handled last, log.map Turn.pair = handled ++ [last] ∧
      ∀ q ∈ found work log, q ∈ handled ↔ Before q last := by
  induction ht with
  | done fs => cases hr
  | failed hv =>
    rename_i p rest _ _ _
    refine ⟨[], p, rfl, fun q hq => iff_of_false (List.not_mem_nil) fun hlt => ?_⟩
    rcases List.mem_cons.mp (by simpa [found] using hq) with rfl | hq
    · exact List.lt_irrefl _ hlt
    · exact List.lt_asymm hlt ((List.pairwise_cons.mp hw).1 q hq).before
  | next hv ht ih =>
    rename_i p rest _ _ out names log _
    obtain ⟨handled, last, hlog, hhandled⟩ := ih (next_ahead (h.ascending hv) hw) hr
    refine ⟨p :: handled, last, congrArg (p :: ·) hlog, fun q hq => ?_⟩
    have hlast : Before p last := before_turns hw ht (by simp [hlog])
    rcases mem_found_cons.mp hq with rfl | hq
    · exact iff_of_true List.mem_cons_self hlast
    · rw [List.mem_cons, hhandled q hq]
      exact ⟨fun hor => hor.elim (fun hp => hp ▸ hlast) id, .inr⟩

end

/-- A walk from one entry is a recursive one, however deep it goes. It takes the entries in
ascending order, each before what is below it. If it succeeds it handles all that it finds. If it
fails, it has handled just what it has found and what comes before the entry at which it fails. -/
structure Recursive (visit : Visit) (p : Pair) (fs : FileSystem)
    (r : Except Failure Unit × FileSystem) : Prop where
  same : ∀ depth s, recurse visit depth p fs = some s → s = r
  ends : ∀ depth, pathLimit < depth → recurse visit depth p fs = some r
  turns : ∃ log, Turns visit [p] fs log r ∧
    (log.map Turn.pair).Pairwise Before ∧ (∀ t ∈ log, t.children.Pairwise Before) ∧
    (r.1 = .ok () → ∀ q ∈ found [p] log, q ∈ log.map Turn.pair) ∧
    ∀ e, r.1 = .error e → ∃ handled last, log.map Turn.pair = handled ++ [last] ∧
      ∀ q ∈ found [p] log, q ∈ handled ↔ Before q last

lemma Orderly.recursive {visit : Visit} (h : Orderly visit) (p : Pair) (fs : FileSystem) :
    Recursive visit p fs (run visit [p] fs) where
  same depth s hs := (h.recurse_eq_run hs).symm
  ends depth hdepth := by
    obtain ⟨d, rfl⟩ := Nat.exists_eq_add_one_of_ne_zero (Nat.ne_zero_of_lt hdepth)
    have hl : pathLimit ≤ d + p.source.names.length := by omega
    obtain ⟨r, hr⟩ := h.exists_recurse fs hl
    rw [hr, h.recurse_eq_run hr]
  turns := by
    obtain ⟨log, hlog⟩ := h.exists_turns [p] fs
    have hw : [p].Pairwise Ahead := List.pairwise_singleton _ _
    exact ⟨log, hlog, hlog.sorted h hw, fun t => hlog.children_sorted h,
      fun hr q => hlog.found_handled hr, fun e => hlog.divided h hw⟩

theorem walks_recursive (m : Manifest) (ctx : Context) (root dest : Path) (fs : FileSystem) :
    Recursive copyVisit ⟨root, dest⟩ fs (copyTree root dest fs) ∧
    Recursive (materializeVisit m ctx root) ⟨root, dest⟩ fs (materialize m ctx root dest fs) :=
  ⟨copyVisit_orderly.recursive _ fs, (materializeVisit_orderly m ctx root).recursive _ fs⟩

end Walk

end Scaffold
