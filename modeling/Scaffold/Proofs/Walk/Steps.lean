import Scaffold.Proofs.FileSystem.Reaching
import Scaffold.Proofs.FileSystem.Trees
import Scaffold.Walk.Materialize

/-! What the operations of a walk do at a path that is looked up at one location, and that none of
them succeeds at a path that is refused. -/

namespace Scaffold

namespace Attempt

variable {σ α β : Type}

def Fails (x : Except Failure α × σ) : Prop :=
  ∃ e, x.1 = .error e

lemma not_fails_ok (a : α) (s : σ) : ¬ Fails (Except.ok a, s) := fun ⟨_, h⟩ => by cases h

lemma bind_of_ok {a : Attempt σ α} {s t : σ} {x : α} (h : a s = (.ok x, t))
    (f : α → Attempt σ β) : (a >>= f) s = f x t := by
  rw [bind_apply, h]

lemma bind_of_error {a : Attempt σ α} {s t : σ} {e : Failure} (h : a s = (.error e, t))
    (f : α → Attempt σ β) : (a >>= f) s = (.error e, t) := by
  rw [bind_apply, h]

lemma bind_eq_ok {a : Attempt σ α} {f : α → Attempt σ β} {s t : σ} {y : β}
    (h : (a >>= f) s = (.ok y, t)) : ∃ x u, a s = (.ok x, u) ∧ f x u = (.ok y, t) := by
  rw [bind_apply] at h
  rcases ha : a s with ⟨e | x, u⟩
  · rw [ha] at h
    cases h
  · rw [ha] at h
    exact ⟨x, u, rfl, h⟩

lemma fails_bind {a : Attempt σ α} {f : α → Attempt σ β} {s : σ}
    (h : ∀ x t, a s = (.ok x, t) → Fails (f x t)) : Fails ((a >>= f) s) := by
  rw [bind_apply]
  rcases ha : a s with ⟨e | x, t⟩
  · exact ⟨e, rfl⟩
  · exact h x t ha

lemma fails_bind_left {a : Attempt σ α} {s : σ} (h : Fails (a s)) (f : α → Attempt σ β) :
    Fails ((a >>= f) s) :=
  fails_bind fun x t hx => absurd (hx ▸ h) (not_fails_ok x t)

lemma mapFailure_of_ok {a : Attempt σ α} {s t : σ} {x : α} (h : a s = (.ok x, t))
    (f : Failure → Failure) : mapFailure f a s = (.ok x, t) := by
  rw [mapFailure, h]

lemma mapFailure_of_error {a : Attempt σ α} {s t : σ} {e : Failure} (h : a s = (.error e, t))
    (f : Failure → Failure) : mapFailure f a s = (.error (f e), t) := by
  rw [mapFailure, h]

lemma fails_mapFailure {a : Attempt σ α} {s : σ} (h : Fails (a s)) (f : Failure → Failure) :
    Fails (mapFailure f a s) := by
  obtain ⟨e, he⟩ := h
  rcases ha : a s with ⟨d | x, t⟩
  · exact ⟨f d, by rw [mapFailure, ha]⟩
  · rw [ha] at he
    cases he

lemma bind_snd_of_fails {a : Attempt σ α} {s : σ} (h : Fails (a s)) (f : α → Attempt σ β) :
    ((a >>= f) s).2 = (a s).2 := by
  obtain ⟨e, he⟩ := h
  rw [bind_apply]
  rcases ha : a s with ⟨d | x, t⟩
  · rfl
  · rw [ha] at he
    cases he

lemma mapFailure_snd (f : Failure → Failure) (a : Attempt σ α) (s : σ) :
    (mapFailure f a s).2 = (a s).2 := by
  rw [mapFailure]
  rcases a s with ⟨e | x, t⟩ <;> rfl

end Attempt

open Attempt

namespace FileSystem

structure Place (fs : FileSystem) (p : Path) (l : Location) : Prop where
  holds : fs.canHold l = true
  denotes : ∀ fs', fs.AgreesOutside fs' l → fs'.Denotes p l

def Shows (fs : FileSystem) (l : Location) (p : Path) (e : Entry) : Prop :=
  ∀ fs', fs.AgreesOutside fs' l → ∃ s, fs'.Denotes p s ∧ fs'.get? s = some e

def replace (fs : FileSystem) (l : Location) (e : Entry) : FileSystem :=
  (fs.erase l).set l e

section

variable {fs fs' : FileSystem} {p source : Path} {l : Location} {e : Entry}

lemma Place.agrees (h : fs.Place p l) (ha : fs.AgreesOutside fs' l) : fs'.Place p l := by
  refine ⟨?_, fun fs'' ha' => h.denotes fs'' (ha.trans ha')⟩
  cases l with
  | nil => cases h.holds
  | cons n loc =>
    obtain ⟨hn, hd⟩ := (canHold_iff fs n loc).mp h.holds
    exact (canHold_iff fs' n loc).mpr ⟨hn, (ha.get? loc (not_suffix_parent n loc)).trans hd⟩

lemma Shows.agrees (h : fs.Shows l source e) (ha : fs.AgreesOutside fs' l) :
    fs'.Shows l source e :=
  fun fs'' ha' => h fs'' (ha.trans ha')

lemma Denotes.entryAt (h : fs.Denotes p l) (he : fs.get? l = some e) : fs.entryAt p = .ok e := by
  rw [FileSystem.entryAt, h.entry, spotAt, he]

lemma Denotes.targetAt (h : fs.Denotes p l) (he : fs.get? l = some e)
    (hl : ∀ target, e ≠ .link target) : fs.targetAt p = .ok e := by
  rw [FileSystem.targetAt, h.through .target (fun t ht => hl t (Option.some.inj (he ▸ ht))),
    spotAt, he]

lemma Denotes.find_vacant (h : fs.Denotes p l) (he : fs.get? l = none) (q : Purpose) :
    fs.find q p = .ok (.vacant l) := by
  rw [h.through q (by simp [he]), spotAt, he]

lemma Denotes.find_there (h : fs.Denotes p l) (he : fs.get? l = some e)
    (hl : ∀ target, e ≠ .link target) (q : Purpose) : fs.find q p = .ok (.there l e) := by
  rw [h.through q (fun t ht => hl t (Option.some.inj (he ▸ ht))), spotAt, he]

lemma Denotes.leads (h : fs.Denotes p l) (hd : fs.get? l = some .directory) : fs.Leads p l :=
  h.find_there hd (by simp) .target

lemma Denotes.isLink (h : fs.Denotes p l) :
    fs.isLink p = .ok ((fs.get? l).any Entry.isLink) := by
  rw [FileSystem.isLink, FileSystem.entryAt, h.entry, spotAt]
  cases fs.get? l <;> rfl

lemma Denotes.ask_targetAt (h : fs.Denotes p l) (hl : ∀ target, fs.get? l ≠ some (.link target))
    (question : Entry → Bool) :
    FileSystem.ask (fs.targetAt p) question = .ok ((fs.get? l).any question) := by
  rw [FileSystem.targetAt, h.through .target hl, spotAt]
  cases fs.get? l <;> rfl

lemma erase_of_none (h : fs.get? l = none) : fs.erase l = fs := by
  apply eq_of_get? (agrees_erase fs l).workDir
  intro l'
  rw [get?_erase fs l l' (by simp [h])]
  by_cases hl : l' = l
  · rw [if_pos hl, hl, h]
  · rw [if_neg hl]

lemma erase_extends (fs : FileSystem) (l : Location) : (fs.erase l).Extends fs := by
  refine ⟨(agrees_erase fs l).workDir.symm, fun {k e} hk => ?_⟩
  by_cases hd : fs.get? l = some .directory
  · rwa [FileSystem.erase, dif_neg (not_not_intro hd)] at hk
  · rw [get?_erase fs l k hd] at hk
    split_ifs at hk
    exact hk

lemma extends_of_agrees (h : fs.AgreesOutside fs' l) (hl : fs.get? l = none) :
    fs.Extends fs' := by
  refine ⟨h.workDir, fun {k d} hk => ?_⟩
  rw [h.get? k, hk]
  rintro ⟨ks, rfl⟩
  rcases eq_or_ne ks [] with rfl | hks
  · cases hl.symm.trans hk
  · cases hl.symm.trans (get?_of_below hk hks)

lemma get?_erase_self (h : fs.get? l ≠ some .directory) : (fs.erase l).get? l = none := by
  rw [get?_erase fs l l h, if_pos rfl]

lemma Place.erase (h : fs.Place p l) : (fs.erase l).Place p l :=
  h.agrees (agrees_erase fs l)

lemma Place.replace (h : fs.Place p l) (e : Entry) : (fs.replace l e).Place p l :=
  h.erase.agrees (agrees_set _ l e)

lemma agrees_replace (fs : FileSystem) (l : Location) (e : Entry) :
    fs.AgreesOutside (fs.replace l e) l :=
  (agrees_erase fs l).trans (agrees_set _ l e)

lemma Place.get?_replace (h : fs.Place p l) (hd : fs.get? l ≠ some .directory) (e : Entry) :
    (fs.replace l e).get? l = some e :=
  get?_set_self h.erase.holds (by simp [get?_erase_self hd])

lemma Place.set_replace (h : fs.Place p l) (hd : fs.get? l ≠ some .directory) {e e' : Entry}
    (he : e ≠ .directory) (he' : e' ≠ .directory) :
    (fs.replace l e).set l e' = fs.replace l e' := by
  have hr : (fs.replace l e).get? l ≠ some .directory := by simp [h.get?_replace hd, he]
  refine eq_of_leaf (get?_set_self (h.replace e).holds hr) (h.get?_replace hd e') he' ?_
  exact ((agrees_replace fs l e).trans (agrees_set _ l e')).symm.trans (agrees_replace fs l e')

end

end FileSystem

namespace FileAction

open FileSystem

section

variable {fs : FileSystem} {p source : Path} {l : Location} {e : Entry}

lemma ask_of_ok {α : Type} {question : FileSystem → Path → Except Refusal α} {a : α}
    (h : question fs p = .ok a) : ask question p fs = (.ok a, fs) := by
  rw [ask, h]

lemma ask_state {α : Type} {question : FileSystem → Path → Except Refusal α} {a : α}
    {fs' : FileSystem} (h : ask question p fs = (.ok a, fs')) : fs' = fs ∧ question fs p = .ok a := by
  unfold ask at h
  cases hq : question fs p with
  | ok b =>
    rw [hq] at h
    cases h
    exact ⟨rfl, rfl⟩
  | error r =>
    rw [hq] at h
    cases h

lemma change_of_ok {operation : FileSystem → Path → Except Refusal FileSystem} {fs' : FileSystem}
    (h : operation fs p = .ok fs') : change operation p fs = (.ok (), fs') := by
  rw [change, h]

lemma change_eq_ok {operation : FileSystem → Path → Except Refusal FileSystem} {fs' : FileSystem}
    (h : change operation p fs = (.ok (), fs')) : operation fs p = .ok fs' := by
  rw [change] at h
  cases hq : operation fs p with
  | ok fs₁ =>
    rw [hq] at h
    cases h
    rfl
  | error r =>
    rw [hq] at h
    cases h

lemma fails_change {operation : FileSystem → Path → Except Refusal FileSystem} {r : Refusal}
    (h : operation fs p = .error r) : Fails (change operation p fs) := by
  rw [change, h]
  exact ⟨_, rfl⟩

lemma makeRoom_of_leaf (h : fs.Place p l) (hd : fs.get? l ≠ some .directory)
    (hp : fs.get? l ≠ some .pipe) : makeRoom p fs = (.ok (), fs.erase l) := by
  have hden := h.denotes fs (.refl fs l)
  cases he : fs.get? l with
  | none =>
    have hlink : fs.isLink p = .ok false := by rw [hden.isLink, he]; rfl
    have hfile : fs.isFile p = .ok false := by
      rw [isFile, hden.ask_targetAt (by simp [he]), he]; rfl
    have hdir : fs.isDirectory p = .ok false := by
      rw [isDirectory, hden.ask_targetAt (by simp [he]), he]; rfl
    rw [makeRoom, bind_of_ok (ask_of_ok hlink), if_neg Bool.false_ne_true,
      bind_of_ok (ask_of_ok hfile), if_neg Bool.false_ne_true,
      bind_of_ok (ask_of_ok hdir), if_neg Bool.false_ne_true, erase_of_none he]
    rfl
  | some e =>
    cases e with
    | directory => exact absurd he hd
    | pipe => exact absurd he hp
    | link target =>
      have hlink : fs.isLink p = .ok true := by rw [hden.isLink, he]; rfl
      rw [makeRoom, bind_of_ok (ask_of_ok hlink), if_pos rfl]
      apply change_of_ok
      rw [removeFile, hden.entry, spotAt, he]
    | file bytes mode =>
      have hlink : fs.isLink p = .ok false := by rw [hden.isLink, he]; rfl
      have hfile : fs.isFile p = .ok true := by
        rw [isFile, hden.ask_targetAt (by simp [he]), he]; rfl
      rw [makeRoom, bind_of_ok (ask_of_ok hlink), if_neg Bool.false_ne_true,
        bind_of_ok (ask_of_ok hfile), if_pos rfl]
      apply change_of_ok
      rw [removeFile, hden.entry, spotAt, he]

lemma makeRoom_directory (hden : fs.Denotes p l) (hd : fs.get? l = some .directory) :
    Fails (makeRoom p fs) := by
  have hlink : fs.isLink p = .ok false := by rw [hden.isLink, hd]; rfl
  have hfile : fs.isFile p = .ok false := by
    rw [isFile, hden.ask_targetAt (by simp [hd]), hd]; rfl
  have hdir : fs.isDirectory p = .ok true := by
    rw [isDirectory, hden.ask_targetAt (by simp [hd]), hd]; rfl
  rw [makeRoom, bind_of_ok (ask_of_ok hlink), if_neg Bool.false_ne_true,
    bind_of_ok (ask_of_ok hfile), if_neg Bool.false_ne_true,
    bind_of_ok (ask_of_ok hdir), if_pos rfl]
  exact ⟨_, rfl⟩

lemma writeFile_of_none (h : fs.Place p l) (he : fs.get? l = none) (bytes : ByteArray) :
    fs.writeFile p bytes = .ok (fs.set l (.file bytes newFileMode)) := by
  rw [writeFile, (h.denotes fs (.refl fs l)).find_vacant he]

lemma writeFile_of_file (h : fs.Place p l) {old : ByteArray} {mode : Nat}
    (he : fs.get? l = some (.file old mode)) (bytes : ByteArray) :
    fs.writeFile p bytes = .ok (fs.set l (.file bytes mode)) := by
  rw [writeFile, (h.denotes fs (.refl fs l)).find_there he (by simp)]

lemma copyMode_of_file (h : fs.Place p l) {bytes old : ByteArray} {mode old_mode : Nat}
    (hs : fs.Shows l source (.file bytes mode)) (he : fs.get? l = some (.file old old_mode)) :
    copyMode source p fs = (.ok (), fs.set l (.file old mode)) := by
  obtain ⟨s, hden, hget⟩ := hs fs (.refl fs l)
  have hmode : modeAt fs source = .ok mode := by
    rw [modeAt, hden.targetAt hget (by simp)]
  rw [copyMode, bind_of_ok (ask_of_ok hmode)]
  apply change_of_ok
  rw [setMode, (h.denotes fs (.refl fs l)).find_there he (by simp)]

lemma readFile_of_file {bytes : ByteArray} {mode : Nat}
    (hs : fs.Shows l source (.file bytes mode)) : fs.readFile source = .ok bytes := by
  obtain ⟨s, hden, hget⟩ := hs fs (.refl fs l)
  rw [readFile, hden.targetAt hget (by simp)]

lemma copyLink_of_leaf (h : fs.Place p l) {target : String}
    (hs : fs.Shows l source (.link target)) (hd : fs.get? l ≠ some .directory)
    (hp : fs.get? l ≠ some .pipe) :
    copyLink source p fs = (.ok (), fs.replace l (.link target)) := by
  obtain ⟨s, hden, hget⟩ := hs.agrees (agrees_erase fs l) _ (.refl _ l)
  have hread : (fs.erase l).readLink source = .ok target := by
    rw [readLink, hden.entryAt hget]
  rw [copyLink, bind_of_ok (makeRoom_of_leaf h hd hp), bind_of_ok (ask_of_ok hread)]
  apply change_of_ok
  rw [makeLink, (h.erase.denotes _ (.refl _ l)).entry, spotAt, get?_erase_self hd]
  rfl

lemma copyFile_of_leaf (h : fs.Place p l) {bytes : ByteArray} {mode : Nat}
    (hs : fs.Shows l source (.file bytes mode)) (hd : fs.get? l ≠ some .directory)
    (hp : fs.get? l ≠ some .pipe) :
    copyFile source p fs = (.ok (), fs.replace l (.file bytes mode)) := by
  have hs' := hs.agrees (agrees_erase fs l)
  have hpipe : isPipe (fs.erase l) p = .ok false := by
    rw [isPipe, targetAt, (h.erase.denotes _ (.refl _ l)).find_vacant (get?_erase_self hd)]
  rw [copyFile, bind_of_ok (makeRoom_of_leaf h hd hp), bind_of_ok (ask_of_ok hpipe),
    if_neg Bool.false_ne_true]
  beta_reduce
  rw [bind_of_ok (ask_of_ok (readFile_of_file hs')),
    bind_of_ok (change_of_ok (writeFile_of_none h.erase (get?_erase_self hd) bytes))]
  have hc := copyMode_of_file (h.replace (.file bytes newFileMode))
    (hs.agrees (agrees_replace fs l _)) (h.get?_replace hd _)
  rw [h.set_replace hd (by simp) (by simp)] at hc
  exact hc

def expandBytes (fs : FileSystem) (ctx : Context) (bytes : ByteArray) : Except Failure String :=
  match Text.Utf8.decode bytes with
  | .error f => .error (.obstacle (.undecodable f.inStream))
  | .ok s => Expr.expandString fs ctx s

lemma expandInto_eq (h : fs.Place p l) {bytes : ByteArray} {mode : Nat}
    (hs : fs.Shows l source (.file bytes mode)) (hd : fs.get? l ≠ some .directory)
    (ctx : Context) :
    match expandBytes (fs.replace l (.file ByteArray.empty newFileMode)) ctx bytes with
    | .ok text => expandInto source p ctx (fs.erase l) =
        (.ok (), fs.replace l (.file text.toUTF8 newFileMode))
    | .error _ => Fails (expandInto source p ctx (fs.erase l)) := by
  have hread := readFile_of_file (hs.agrees (agrees_erase fs l))
  have hread' := readFile_of_file
    (hs.agrees (agrees_replace fs l (.file ByteArray.empty newFileMode)))
  have hwrite := writeFile_of_none h.erase (get?_erase_self hd) ByteArray.empty
  rw [expandInto, bind_of_ok (ask_of_ok hread), bind_of_ok (change_of_ok hwrite)]
  rw [FileSystem.replace] at hread' ⊢
  rw [bind_of_ok (ask_of_ok hread'), expandBytes]
  cases Text.Utf8.decode bytes with
  | error f => exact ⟨_, rfl⟩
  | ok s =>
    have hw := writeFile_of_file (h.replace (.file ByteArray.empty newFileMode))
      (h.get?_replace hd _)
    rw [FileSystem.replace] at hw
    simp only [writeRendering, hw, Expr.expandString]
    generalize Expr.expand ((fs.erase l).set l (.file ByteArray.empty newFileMode)) ctx s.toList = r
    cases r.result with
    | error e => exact ⟨e, rfl⟩
    | ok u => exact congrArg (Prod.mk (Except.ok ())) (h.set_replace hd (by simp) (by simp))

lemma makeDirectories_eq (h : fs.makeDirectory p ≠ .error .noEntry) :
    makeDirectories p fs = makeOneDirectory p fs := by
  obtain ⟨anchor, names⟩ := p
  cases names with
  | nil => rfl
  | cons n names =>
    simp only [makeDirectories, makeDirectoriesAt]

lemma makeDirectories_of_none (h : fs.find .entry p = .ok (.vacant l)) :
    makeDirectories p fs = (.ok (), fs.set l .directory) := by
  have hmake : fs.makeDirectory p = .ok (fs.set l .directory) := by rw [makeDirectory, h]
  rw [makeDirectories_eq (by simp [hmake]), makeOneDirectory, hmake]

lemma makeDirectories_of_directory (h : fs.Denotes p l) (hd : fs.get? l = some .directory) :
    makeDirectories p fs = (.ok (), fs) := by
  have hmake : fs.makeDirectory p = .error .occupied := by
    rw [makeDirectory, h.find_there hd (by simp)]
  have hdir : fs.isDirectory p = .ok true := by
    rw [isDirectory, h.ask_targetAt (by simp [hd]), hd]; rfl
  rw [makeDirectories_eq (by simp [hmake]), makeOneDirectory, hmake, hdir]
  rfl

lemma fails_makeOneDirectory {r : Refusal} (h : fs.makeDirectory p = .error r)
    (hd : fs.isDirectory p ≠ .ok true) : Fails (makeOneDirectory p fs) := by
  rw [makeOneDirectory, h]
  by_cases hr : r = .noEntry
  · simp only [hr, if_true]
    exact ⟨_, rfl⟩
  · simp only [hr, if_false]
    rcases hq : fs.isDirectory p with r' | (_ | _)
    · exact ⟨_, rfl⟩
    · exact ⟨_, rfl⟩
    · exact absurd hq hd

lemma fails_makeOneDirectory_of_refused {r : Refusal} (h : fs.find .entry p = .error r) :
    Fails (makeOneDirectory p fs) := by
  apply fails_makeOneDirectory (r := r) (by rw [makeDirectory, h])
  intro hd
  obtain ⟨loc, hleads⟩ := leads_of_isDirectory hd
  obtain ⟨l, e, hentry⟩ := hleads.entry
  rw [h] at hentry
  cases hentry

lemma fails_makeDirectories_of_refused {r : Refusal} (h : fs.find .entry p = .error r)
    (hr : r ≠ .noEntry) : Fails (makeDirectories p fs) := by
  have hmake : fs.makeDirectory p = .error r := by rw [makeDirectory, h]
  rw [makeDirectories_eq (by simp [hmake, hr])]
  exact fails_makeOneDirectory_of_refused h

lemma fails_makeDirectories_of_there (h : fs.find .entry p = .ok (.there l e))
    (hd : fs.isDirectory p ≠ .ok true) : Fails (makeDirectories p fs) := by
  have hmake : fs.makeDirectory p = .error .occupied := by rw [makeDirectory, h]
  rw [makeDirectories_eq (by simp [hmake])]
  exact fails_makeOneDirectory hmake hd

section

variable {r : Refusal} (h : ∀ q, fs.find q p = .error r)

include h

lemma makeRoom_of_refused : ∀ u fs', makeRoom p fs = (.ok u, fs') → fs' = fs := by
  have hlink : fs.isLink p = FileSystem.ask (.error r) Entry.isLink := by
    rw [isLink, entryAt, h]
  by_cases hr : r.meansAbsent = true
  · have hask (question : Entry → Bool) :
        FileSystem.ask (fs.targetAt p) question = .ok false := by
      rw [targetAt, h, FileSystem.ask, if_pos hr]
    rw [FileSystem.ask, if_pos hr] at hlink
    rw [makeRoom, bind_of_ok (ask_of_ok hlink), if_neg Bool.false_ne_true,
      bind_of_ok (ask_of_ok (hask Entry.isFile)), if_neg Bool.false_ne_true,
      bind_of_ok (ask_of_ok (hask Entry.isDirectory)), if_neg Bool.false_ne_true]
    rintro u fs' ⟨⟩
    rfl
  · rw [FileSystem.ask, if_neg hr] at hlink
    intro u fs' hroom
    rw [makeRoom, bind_apply, ask, hlink] at hroom
    cases hroom

lemma fails_copyLink : Fails (copyLink source p fs) := by
  refine fails_bind fun u fs' hroom => fails_bind fun target fs'' hread => ?_
  obtain rfl := makeRoom_of_refused h u fs' hroom
  obtain ⟨rfl, -⟩ := ask_state hread
  exact fails_change (by rw [makeLink, h])

lemma fails_copyFile : Fails (copyFile source p fs) := by
  refine fails_bind fun u fs' hroom => fails_bind fun b fs'' hpipe => ?_
  obtain rfl := makeRoom_of_refused h u fs' hroom
  obtain ⟨rfl, hpipe⟩ := ask_state hpipe
  obtain rfl : b = false := by
    rw [isPipe, targetAt, h] at hpipe
    cases hpipe
    rfl
  rw [if_neg Bool.false_ne_true]
  refine fails_bind fun bytes fs''' hread => fails_bind_left ?_ _
  obtain ⟨rfl, -⟩ := ask_state hread
  exact fails_change (by rw [writeFile, h])

lemma fails_expandInto (ctx : Context) : Fails (expandInto source p ctx fs) := by
  refine fails_bind fun bytes fs' hread => fails_bind_left ?_ _
  obtain ⟨rfl, -⟩ := ask_state hread
  exact fails_change (by rw [writeFile, h])

end

end

end FileAction

end Scaffold
