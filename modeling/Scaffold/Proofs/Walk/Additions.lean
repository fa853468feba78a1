import Scaffold.Proofs.FileSystem.Refusals
import Scaffold.Proofs.Walk.Recursion
import Scaffold.Proofs.Walk.Resolving

namespace Scaffold

namespace Location

def Apart (a b : Location) : Prop :=
  ¬ a <:+ b ∧ ¬ b <:+ a

variable {a b : Location} {m n : String}

lemma Apart.below (h : Apart a b) (n : String) : Apart (n :: a) b := by
  refine ⟨fun hs => h.1 ((List.suffix_cons n a).trans hs), fun hs => ?_⟩
  rcases List.suffix_cons_iff.mp hs with rfl | hs
  · exact h.1 (List.suffix_cons n a)
  · exact h.2 hs

lemma apart_siblings (h : m ≠ n) (a : Location) : Apart (m :: a) (n :: a) :=
  ⟨FileSystem.not_suffix_sibling h [], FileSystem.not_suffix_sibling h.symm []⟩

end Location

namespace Walk

open Attempt FileAction FileSystem Location

structure Awaits (fs : FileSystem) (p : Pair) (l : Location) : Prop where
  inside : ∃ (q : Path) (n : Name) (d : Location), p.dest = q.child n ∧ l = n.1 :: d ∧
    n.1 ≠ ".." ∧ fs.Leads q d
  vacant : fs.get? l = none

structure Ready (fs : FileSystem) (jobs : List (Pair × Location)) : Prop where
  awaits : ∀ j ∈ jobs, Awaits fs j.1 j.2
  apart : jobs.Pairwise fun i j => Apart i.2 j.2

structure Adds (fs : FileSystem) (p : Pair) (l : Location)
    (r : Except Failure (Path × List Name) × FileSystem) : Prop where
  agrees : fs.AgreesOutside r.2 l
  next : ∀ out names fs', r = (.ok (out, names), fs') →
    Ready fs' (names.map fun n => (p.child out n, n.1 :: l))

section

variable {fs fs' : FileSystem} {p : Pair} {l k : Location} {source dest out : Path}
  {names : List Name} {jobs : List (Pair × Location)} {e : Entry} {f : Failure}
  {a : FileAction (Path × List Name)}

lemma Awaits.agrees (h : Awaits fs p l) (ha : fs.AgreesOutside fs' k) (hg : fs.Extends fs')
    (hk : ¬ k <:+ l) : Awaits fs' p l := by
  obtain ⟨q, n, d, hp, hl, hn, hq⟩ := h.inside
  exact ⟨⟨q, n, d, hp, hl, hn, hq.extends hg⟩, (ha.get? l hk).trans h.vacant⟩

lemma ready_nil (fs : FileSystem) : Ready fs [] :=
  ⟨List.forall_mem_nil _, .nil⟩

lemma ready_children (hleads : fs.Leads out l) (hlist : fs'.list p.source = .ok names)
    (hnone : ∀ n ∈ names, fs.get? (n.1 :: l) = none) :
    Ready fs (names.map fun n => (p.child out n, n.1 :: l)) := by
  constructor
  · intro j hj
    obtain ⟨n, hn, rfl⟩ := List.mem_map.mp hj
    have hup := ((isEntryName_iff n).mp ((isEntryName_of_list hlist).2 n hn)).1
    exact ⟨⟨out, n, l, rfl, rfl, hup, hleads⟩, hnone n hn⟩
  · have hsorted := List.pairwise_map.mp (list_ascending hlist)
    exact List.pairwise_map.mpr (hsorted.imp fun hlt => apart_siblings (String.ne_of_lt hlt) l)

lemma adds_of_error (ha : fs.AgreesOutside fs' l) : Adds fs p l (.error f, fs') :=
  ⟨ha, fun _ _ _ h => by cases h⟩

lemma Adds.mapFailure (h : Adds fs p l (a fs)) (g : Failure → Failure) :
    Adds fs p l (mapFailure g a fs) where
  agrees := by
    rw [mapFailure_snd]
    exact h.agrees
  next out names fs' hok := h.next out names fs' (mapFailure_eq_ok hok)

lemma Awaits.openDirectory (h : Awaits fs p l) :
    Adds fs p l (openDirectory p.source p.dest fs) := by
  obtain ⟨⟨q, n, d, hp, rfl, hn, hq⟩, hvacant⟩ := h
  rw [hp]
  by_cases hfit : isEntryName n.1 = true ∧ (q.child n).byteLength ≤ pathLimit
  swap
  · obtain ⟨r, hr, hrefused⟩ := hq.refused hn hfit
    have hstays := unchanged_of_refused (hrefused .entry) hr
    obtain ⟨e, he⟩ := openDirectory_of_unchanged hstays p.source
    rw [he]
    exact adds_of_error (.refl fs _)
  have hfind := (hq.denotes hfit.1 hfit.2).find_vacant hvacant .entry
  have ho := opened_set (canHold_of_vacant hfind) hvacant
  have ha := agrees_set fs (n.1 :: d) .directory
  rw [Walk.openDirectory, bind_of_ok (makeDirectories_of_none hfind), bind_apply, FileAction.ask]
  cases hlist : (fs.set (n.1 :: d) .directory).list p.source with
  | error r => exact adds_of_error ha
  | ok ns =>
    refine ⟨ha, fun out names fs' hok => ?_⟩
    cases hok
    exact ready_children (leads_of_vacant hfind ho.grows ho.holds.get?_self) hlist
      fun m _ => ho.holds.get?_child m.1

lemma Awaits.leaf (h : Awaits fs p l) (he : e ≠ .directory) : Adds fs p l (copyEntry p e fs) := by
  obtain ⟨⟨q, n, d, hp, rfl, hn, hq⟩, -⟩ := h
  obtain ⟨fs₁, hfrees, hfills, -⟩ := copyEntry_replaces he p fs
  rw [hp] at hfrees hfills
  refine ⟨(hq.agrees_frees hn hfrees).trans (hq.agrees_fills hfrees.extends hn hfills),
    fun out names fs' hok => ?_⟩
  obtain rfl := names_of_leaf he hok
  exact ready_nil fs'

lemma Awaits.visit (h : Awaits fs p l) : Adds fs p l (copyVisit p fs) := by
  cases hentry : fs.entryAt p.source with
  | error r =>
    obtain ⟨f, hv⟩ := copyVisit_of_refused hentry
    rw [hv]
    exact adds_of_error (.refl fs l)
  | ok e =>
    rw [copyVisit_eq hentry]
    by_cases hdir : e = .directory
    · subst hdir
      exact h.openDirectory.mapFailure _
    · exact (h.leaf hdir).mapFailure _

lemma Ready.next (h : Ready fs ((p, l) :: jobs)) (hv : copyVisit p fs = (.ok (out, names), fs')) :
    Ready fs' (names.map (fun n => (p.child out n, n.1 :: l)) ++ jobs) := by
  obtain ⟨hp, hjobs⟩ := List.forall_mem_cons.mp h.awaits
  obtain ⟨hl, hapart⟩ := List.pairwise_cons.mp h.apart
  have hvisit := hp.visit
  rw [hv] at hvisit
  have hchildren := hvisit.next out names fs' rfl
  have hg := extends_of_agrees hvisit.agrees hp.vacant
  constructor
  · intro j hj
    rcases List.mem_append.mp hj with hj | hj
    · exact hchildren.awaits j hj
    · exact (hjobs j hj).agrees hvisit.agrees hg (hl j hj).1
  · refine List.pairwise_append.mpr ⟨hchildren.apart, hapart, fun i hi j hj => ?_⟩
    obtain ⟨n, -, rfl⟩ := List.mem_map.mp hi
    exact (hl j hj).below n.1

lemma Ready.run (h : Ready fs jobs) :
    fs.Extends (run copyVisit (jobs.map Prod.fst) fs).2 ∧
      ∀ k, (∀ j ∈ jobs, ¬ j.2 <:+ k) →
        (run copyVisit (jobs.map Prod.fst) fs).2.get? k = fs.get? k := by
  generalize hwork : jobs.map Prod.fst = work
  induction work, fs using run.induct copyVisit generalizing jobs with
  | case1 fs =>
    rw [run_nil]
    exact ⟨.refl fs, fun _ _ => rfl⟩
  | case2 fs p rest e fs' hv =>
    obtain ⟨⟨p, l⟩, jobs, rfl, rfl, rfl⟩ := List.map_eq_cons_iff.mp hwork
    have hp := h.awaits _ List.mem_cons_self
    have hvisit := hp.visit
    rw [hv] at hvisit
    rw [run_of_error hv]
    exact ⟨extends_of_agrees hvisit.agrees hp.vacant,
      fun k hk => hvisit.agrees.get? k (hk _ List.mem_cons_self)⟩
  | case3 fs p rest out names fs' hv hlen ih =>
    obtain ⟨⟨p, l⟩, jobs, rfl, rfl, rfl⟩ := List.map_eq_cons_iff.mp hwork
    have hp := h.awaits _ List.mem_cons_self
    have hvisit := hp.visit
    rw [hv] at hvisit
    rw [run_of_ok hv (copyVisit_orderly.short hv)]
    -- The children are below the place of their directory, which is apart from all the others.
    obtain ⟨hg, hrest⟩ := ih (h.next hv) (by simp)
    refine ⟨(extends_of_agrees hvisit.agrees hp.vacant).trans hg, fun k hk => ?_⟩
    have hl : ¬ l <:+ k := hk _ List.mem_cons_self
    refine (hrest k fun j hj => ?_).trans (hvisit.agrees.get? k hl)
    rcases List.mem_append.mp hj with hj | hj
    · obtain ⟨n, -, rfl⟩ := List.mem_map.mp hj
      exact fun hs => hl ((List.suffix_cons n.1 l).trans hs)
    · exact hk j (List.mem_cons_of_mem _ hj)
  | case4 fs p rest out names fs' hv hlen ih =>
    exact absurd (Path.length_lt (copyVisit_orderly.short hv)) hlen

lemma Ready.run_children (h : Ready fs (names.map fun n => (p.child out n, n.1 :: l))) :
    fs.Extends (Walk.run copyVisit (names.map (p.child out)) fs).2 := by
  have hrun := h.run.1
  rwa [List.map_map] at hrun

lemma Awaits.copyTree (h : Awaits fs ⟨source, dest⟩ l) :
    fs.Extends (copyTree source dest fs).2 ∧ fs.AgreesOutside (copyTree source dest fs).2 l := by
  have hready : Ready fs [(⟨source, dest⟩, l)] := ⟨by simpa using h, List.pairwise_singleton _ _⟩
  obtain ⟨hg, hrest⟩ := hready.run
  exact ⟨hg, hg.workDir, fun k hk => hrest k (by simpa using hk)⟩

lemma copyTree_of_leaf (hentry : fs.entryAt source = .ok e) (he : e ≠ .directory) (dest : Path) :
    (Walk.copyTree source dest fs).2 = (copyEntry ⟨source, dest⟩ e fs).2 ∧
      ((Walk.copyTree source dest fs).1 = .ok () →
        ∃ r, (copyEntry ⟨source, dest⟩ e fs).1 = .ok r) := by
  have hvisit := copyVisit_eq (p := ⟨source, dest⟩) hentry
  rw [Walk.copyTree]
  rcases hcopy : copyEntry ⟨source, dest⟩ e fs with ⟨f | ⟨out, names⟩, fs'⟩
  · rw [run_of_error (hvisit.trans (mapFailure_of_error hcopy _))]
    exact ⟨rfl, fun hok => by cases hok⟩
  · obtain rfl := names_of_leaf he hcopy
    rw [run_of_ok (hvisit.trans (mapFailure_of_ok hcopy _)) (short_of_entryAt hentry)]
    exact ⟨congrArg Prod.snd (run_nil copyVisit fs'), fun _ => ⟨_, rfl⟩⟩

lemma openDirectory_of_absent (h : fs.Absent dest) (source : Path) :
    fs.Extends (Walk.openDirectory source dest fs).2 ∧
      ∀ out names fs', Walk.openDirectory source dest fs = (.ok (out, names), fs') →
        ∃ D, Ready fs' (names.map fun n => (Pair.child ⟨source, dest⟩ out n, n.1 :: D)) := by
  rcases resolves_or_unchanged h.noUp with ⟨D, hD⟩ | hstays
  swap
  · obtain ⟨e, he⟩ := openDirectory_of_unchanged hstays source
    rw [he]
    exact ⟨.refl fs, fun _ _ _ hok => by cases hok⟩
  obtain ⟨hpaves, hto⟩ := hD.makeDirectories_paves
  rw [Walk.openDirectory, bind_apply]
  rcases hmake : makeDirectories dest fs with ⟨e | u, fs₁⟩
  · rw [hmake] at hpaves
    exact ⟨hpaves.grows, fun _ _ _ hok => by cases hok⟩
  rw [hmake] at hpaves
  dsimp only
  rw [bind_apply, FileAction.ask]
  cases hlist : fs₁.list source with
  | error r => exact ⟨hpaves.grows, fun _ _ _ hok => by cases hok⟩
  | ok ns =>
    refine ⟨hpaves.grows, fun out names fs' hok => ?_⟩
    cases hok
    refine ⟨D, ready_children (hto fs₁ hmake) hlist fun n _ => ?_⟩
    have hnone : fs.get? D = none := by
      rcases hD.there_or_none with ⟨e, he⟩ | hnone
      · exact absurd he (find_target_ne h.nothing)
      · exact hnone
    rcases hpaves.get? (n.1 :: D) with hsame | ⟨hs, -⟩
    · rw [hsame]
      exact get?_below (by simp [hnone]) n.1 []
    · exact absurd hs (not_suffix_parent n.1 D)

lemma copyTree_of_absent (h : fs.Absent dest) (source : Path) :
    fs.Extends (Walk.copyTree source dest fs).2 := by
  cases hentry : fs.entryAt source with
  | error r =>
    obtain ⟨f, hf⟩ := copyTree_of_lost hentry dest
    rw [hf]
    exact .refl fs
  | ok e =>
    by_cases hdir : e = .directory
    swap
    · rw [(copyTree_of_leaf hentry hdir dest).1]
      obtain ⟨fs₁, rfl | hremove, hfills, -⟩ := copyEntry_replaces hdir ⟨source, dest⟩ fs
      · exact hfills.extends
      · obtain ⟨l, d, hl, -⟩ := removeFile_eq_ok hremove
        exact absurd hl (h.nothing l d)
    subst hdir
    obtain ⟨hg, hnext⟩ := openDirectory_of_absent h source
    rcases hopen : Walk.openDirectory source dest fs with ⟨f | ⟨out, names⟩, fs'⟩
    · rw [hopen] at hg
      obtain ⟨e, he⟩ := copyTree_of_unopened hentry hopen
      rwa [he]
    · rw [hopen] at hg
      obtain ⟨D, hready⟩ := hnext out names fs' hopen
      rw [copyTree_of_opened hentry hopen]
      exact hg.trans hready.run_children

end

end Walk

end Scaffold
