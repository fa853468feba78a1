import Scaffold.Proofs.Walk.Additions
import Scaffold.Proofs.Walk.Overlay
import Scaffold.Proofs.Walk.Visiting
import Scaffold.Store

/-! What a copy leaves alone. It takes nothing away but a file or link that one of its destination
paths leads to. That may be one of its source, and even the one that is to be copied, which is lost
then. -/

namespace Scaffold

namespace Walk

open Attempt FileAction FileSystem

/-- A walk comes to an entry, and this is the file system then. -/
inductive Comes (visit : Visit) : List Pair → FileSystem → Pair → FileSystem → Prop
  | here (p : Pair) (rest : List Pair) (fs : FileSystem) : Comes visit (p :: rest) fs p fs
  | next {p q : Pair} {rest : List Pair} {fs fs₁ fs₂ : FileSystem} {out : Path}
      {names : List Name} (hv : visit p fs = (.ok (out, names), fs₁))
      (hq : Comes visit (names.map (p.child out) ++ rest) fs₁ q fs₂) :
      Comes visit (p :: rest) fs q fs₂

structure Strikes (fs : FileSystem) (p : Pair) (l : Location) (e : Entry) : Prop where
  leaf : ∃ d, fs.entryAt p.source = .ok d ∧ d ≠ .directory ∧ d ≠ .pipe
  hit : fs.find .entry p.dest = .ok (.there l e)
  no_directory : e ≠ .directory
  no_pipe : e ≠ .pipe

/-- On the way of the copy the entry is taken away, since a file or link is to be copied to there.
Nothing needs to come there after it. -/
def Struck (source dest : Path) (fs : FileSystem) (l : Location) (e : Entry) : Prop :=
  ∃ names fs', Comes copyVisit [⟨source, dest⟩] fs (below ⟨source, dest⟩ names) fs' ∧
    Strikes fs' (below ⟨source, dest⟩ names) l e

section

variable {fs fs' : FileSystem} {p q : Pair} {l : Location} {e : Entry} {source dest : Path}
  {work : List Pair}

lemma copyEntry_of_pipe (he : e ≠ .directory) (h : fs.find .entry p.dest = .ok (.there l .pipe)) :
    (copyEntry p e fs).2 = fs := by
  have hentry : fs.entryAt p.dest = .ok .pipe := by rw [entryAt, h]
  have htarget : fs.targetAt p.dest = .ok .pipe := by
    rw [targetAt, find_sees (.refl fs) (.inr ⟨rfl, by simp⟩) h]
  have hlink : fs.isLink p.dest = .ok false := by rw [isLink, hentry]; rfl
  have hfile : fs.isFile p.dest = .ok false := by rw [isFile, htarget]; rfl
  have hdir : fs.isDirectory p.dest = .ok false := by rw [isDirectory, htarget]; rfl
  have hpipe : isPipe fs p.dest = .ok true := by rw [isPipe, htarget]
  -- A pipe counts neither as a file nor as a directory, so it is left to what comes next.
  have hroom : makeRoom p.dest fs = (.ok (), fs) := by
    rw [makeRoom, bind_of_ok (ask_of_ok hlink), if_neg Bool.false_ne_true,
      bind_of_ok (ask_of_ok hfile), if_neg Bool.false_ne_true, bind_of_ok (ask_of_ok hdir)]
    rfl
  cases e with
  | directory => exact absurd rfl he
  | pipe => rfl
  | file bytes mode =>
    have hcopy : ∃ f, copyFile p.source p.dest fs = (.error f, fs) := by
      rw [copyFile, bind_of_ok hroom, bind_of_ok (ask_of_ok hpipe)]
      exact ⟨_, rfl⟩
    obtain ⟨f, hf⟩ := hcopy
    rw [copyEntry, bind_of_error hf]
  | link target =>
    have hcopy : ∃ f, copyLink p.source p.dest fs = (.error f, fs) := by
      rw [copyLink, bind_of_ok hroom, bind_apply, FileAction.ask]
      cases fs.readLink p.source with
      | error r => exact ⟨_, rfl⟩
      | ok target =>
        dsimp only
        rw [change, makeLink, h]
        exact ⟨_, rfl⟩
    obtain ⟨f, hf⟩ := hcopy
    rw [copyEntry, bind_of_error hf]

lemma copyEntry_keeps {d : Entry} (hsource : fs.entryAt p.source = .ok d)
    (hl : fs.get? l = some e) :
    (copyEntry p d fs).2.get? l = some e ∨ Strikes fs p l e := by
  by_cases hdir : d = .directory
  · subst hdir
    left
    have hgrows := (makeDirectories_prepares p.dest fs).grows
    rw [copyEntry, openDirectory, bind_apply]
    rcases hmake : makeDirectories p.dest fs with ⟨f | u, fs₁⟩
    · rw [hmake] at hgrows
      exact hgrows.get? hl
    · rw [hmake] at hgrows
      dsimp only
      rw [bind_apply, FileAction.ask]
      cases fs₁.list p.source <;> exact hgrows.get? hl
  · by_cases hunsupported : d = .pipe
    · subst hunsupported
      exact .inl hl
    obtain ⟨fs₁, rfl | hremove, hfills, -⟩ := copyEntry_replaces hdir p fs
    · exact .inl (hfills.extends.get? hl)
    obtain ⟨k, c, hk, hc, rfl⟩ := removeFile_eq_ok hremove
    have hget := get?_of_there hk
    by_cases hkl : l = k
    · subst hkl
      obtain rfl := Option.some.inj (hget.symm.trans hl)
      by_cases hpipe : c = .pipe
      · subst hpipe
        left
        rwa [copyEntry_of_pipe hdir hk]
      · exact .inr ⟨⟨d, hsource, hdir, hunsupported⟩, hk, hc, hpipe⟩
    · left
      apply hfills.extends.get?
      rw [get?_erase fs k l (by simpa [hget] using hc), if_neg hkl, hl]

lemma copyVisit_keeps (p : Pair) (hl : fs.get? l = some e) :
    (copyVisit p fs).2.get? l = some e ∨ Strikes fs p l e := by
  cases hentry : fs.entryAt p.source with
  | error r =>
    obtain ⟨f, hv⟩ := copyVisit_of_refused hentry
    rw [hv]
    exact .inl hl
  | ok d =>
    rw [copyVisit_eq hentry, mapFailure_snd]
    exact copyEntry_keeps hentry hl

lemma run_keeps (work : List Pair) (hl : fs.get? l = some e) :
    (run copyVisit work fs).2.get? l = some e ∨
      ∃ p fs', Comes copyVisit work fs p fs' ∧ Strikes fs' p l e := by
  induction work, fs using run.induct copyVisit with
  | case1 fs =>
    rw [run_nil]
    exact .inl hl
  | case2 fs p rest f fs' hv =>
    have hkeeps := copyVisit_keeps p hl
    rw [hv] at hkeeps
    rw [run_of_error hv]
    exact hkeeps.imp id fun hs => ⟨p, fs, .here p rest fs, hs⟩
  | case3 fs p rest out names fs' hv hlen ih =>
    have hkeeps := copyVisit_keeps p hl
    rw [hv] at hkeeps
    rw [run_of_ok hv (copyVisit_orderly.short hv)]
    rcases hkeeps with hstill | hs
    · obtain hlast | ⟨q, fs₂, hq, hs⟩ := ih hstill
      · exact .inl hlast
      · exact .inr ⟨q, fs₂, .next hv hq, hs⟩
    · exact .inr ⟨p, fs, .here p rest fs, hs⟩
  | case4 fs p rest out names fs' hv hlen ih =>
    exact absurd (Path.length_lt (copyVisit_orderly.short hv)) hlen

lemma names_of_comes (h : Comes copyVisit work fs q fs') :
    ∃ p ∈ work, ∃ names, q = below p names := by
  induction h with
  | here p rest fs => exact ⟨p, List.mem_cons_self, [], rfl⟩
  | @next p q rest fs fs₁ fs₂ out names hv hq ih =>
    obtain ⟨w, hw, ns, rfl⟩ := ih
    rcases List.mem_append.mp hw with hw | hw
    · obtain ⟨n, hn, rfl⟩ := List.mem_map.mp hw
      obtain ⟨-, rfl | ⟨fs₃, hopen⟩⟩ := copyVisit_children hv
      · cases hn
      obtain ⟨rfl, -⟩ := openDirectory_clean hopen
      exact ⟨p, List.mem_cons_self, ns ++ [n], (below_concat p ns n).symm⟩
    · exact ⟨w, List.mem_cons_of_mem p hw, ns, rfl⟩

lemma copyTree_keeps (source dest : Path) (hl : fs.get? l = some e) :
    (copyTree source dest fs).2.get? l = some e ∨ Struck source dest fs l e := by
  refine (run_keeps [⟨source, dest⟩] hl).imp id fun ⟨p, fs', hp, hs⟩ => ?_
  obtain ⟨w, hw, names, rfl⟩ := names_of_comes hp
  obtain rfl := List.mem_singleton.mp hw
  exact ⟨names, fs', hp, hs⟩

lemma Separate.spares {S : Location} (h : Separate fs source dest)
    (hsource : fs.find .entry source = .ok (.there S e)) :
    Spared fs S (copyTree source dest fs).2 := by
  by_cases hdir : e = .directory
  · subst hdir
    obtain ⟨f, hf, hs⟩ := exists_forest_of_directory (get?_of_there hsource)
    exact (h.directory_passes hsource hf hs).turns.choose_spec.2.2.2
  · exact (h.leaf_passes hsource hdir).turns.choose_spec.2.2.2

end

/-- What has become of a file system through a copy, whether it has succeeded or not. -/
structure Spares (source dest : Path) (fs fs' : FileSystem) : Prop where
  keeps : ∀ l e, fs.get? l = some e → fs'.get? l = some e ∨ Struck source dest fs l e
  fresh : fs.Absent dest → fs.Extends fs'
  apart : Separate fs source dest → ∀ S e, fs.find .entry source = .ok (.there S e) →
    ∀ ks, fs'.get? (ks ++ S) = fs.get? (ks ++ S)

lemma spares_of_copyTree (source dest : Path) (fs : FileSystem) :
    Spares source dest fs (copyTree source dest fs).2 where
  keeps _ _ := copyTree_keeps source dest
  fresh h := copyTree_of_absent h source
  apart h _ _ := h.spares

lemma spares_refl (source dest : Path) (fs : FileSystem) : Spares source dest fs fs :=
  ⟨fun _ _ => .inl, fun _ => .refl fs, fun _ _ _ _ _ => rfl⟩

lemma spares_of_edit {home : Home} {name : String} {p : Path} (hp : Store.path home name = .ok p)
    (dest : Path) (fs : FileSystem) : Spares p dest fs (Store.edit home name dest fs).2 := by
  rw [Store.edit, Store.directoryOf, hp, settle_ok, bind_apply, bind_of_ok (pure_apply p fs),
    bind_apply, FileAction.ask]
  rcases fs.isDirectory p with r | (_ | _)
  · exact spares_refl p dest fs
  · exact spares_refl p dest fs
  · exact spares_of_copyTree p dest fs

theorem copyTree_spares (source dest : Path) (fs : FileSystem) :
    Spares source dest fs (copyTree source dest fs).2 ∧
    ∀ home name, match Store.path home name with
      | .ok p => Spares p dest fs (Store.edit home name dest fs).2
      | .error e => Store.edit home name dest fs = (.error e, fs) := by
  refine ⟨spares_of_copyTree source dest fs, fun home name => ?_⟩
  cases hp : Store.path home name with
  | ok p => exact spares_of_edit hp dest fs
  | error e =>
    rw [Store.edit, Store.directoryOf, hp]
    rfl

def nestedFiles : FileSystem :=
  ((((FileSystem.empty.set ["d"] .directory).set ["s", "d"] .directory).set ["s", "s", "d"]
    .directory).set ["f", "s", "d"] (.file "outer".toUTF8 0o644)).set ["f", "s", "s", "d"]
      (.file "inner".toUTF8 0o644)

theorem copyTree_spares_itself :
    nestedFiles.Absent (Path.ofString "d/s/n") ∧
    (copyTree (Path.ofString "d/s") (Path.ofString "d/s/n") nestedFiles).2.get? ["f", "s", "d"] =
      some (.file "outer".toUTF8 0o644) := by
  have hvacant : nestedFiles.find .entry (Path.ofString "d/s/n") =
      .ok (.vacant ["n", "s", "d"]) := by
    decide +kernel
  have hnames : ∀ n ∈ (Path.ofString "d/s/n").names, n.1 ≠ ".." := by decide +kernel
  have habsent : nestedFiles.Absent (Path.ofString "d/s/n") :=
    ⟨fun l e hl => by simp [hvacant] at hl,
      fun n names hs hup => absurd hup (hnames n (hs.subset List.mem_cons_self))⟩
  have hgrows := (copyTree_spares (Path.ofString "d/s") (Path.ofString "d/s/n")
    nestedFiles).1.fresh habsent
  exact ⟨habsent, hgrows.get? (by decide +kernel)⟩

def loneFiles : FileSystem :=
  (FileSystem.empty.set ["d"] .directory).set ["f", "d"] (.file "text".toUTF8 0o644)

/-- A file that is copied onto itself is taken away first, and nothing is left to copy. -/
theorem copyTree_onto_itself :
    loneFiles.Leads (Path.ofString "d") ["d"] ∧
    loneFiles.get? ["f", "d"] = some (.file "text".toUTF8 0o644) ∧
    (copyTree (Path.ofString "d") (Path.ofString "d") loneFiles).1 =
      .error (.copyFailed (Path.ofString "d/f") (.refused .noEntry "d/f") (Path.ofString "d/f")) ∧
    (copyTree (Path.ofString "d") (Path.ofString "d") loneFiles).2.get? ["f", "d"] = none := by
  have hrun : (runWithin copyVisit 2 [⟨Path.ofString "d", Path.ofString "d"⟩] loneFiles).map
      (fun r => (r.1, r.2.get? ["f", "d"])) =
        some (.error (.copyFailed (Path.ofString "d/f") (.refused .noEntry "d/f")
          (Path.ofString "d/f")), none) := by
    decide +kernel
  obtain ⟨r, hr, hget⟩ := Option.map_eq_some_iff.mp hrun
  rw [copyTree, run_of_runWithin hr]
  exact ⟨by decide +kernel, by decide +kernel, congrArg Prod.fst hget, congrArg Prod.snd hget⟩

end Walk

end Scaffold
