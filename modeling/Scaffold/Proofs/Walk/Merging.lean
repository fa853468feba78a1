import Scaffold.Proofs.Walk.Containing
import Scaffold.Proofs.Walk.Sparing

namespace Scaffold

namespace FileSystem

structure Ways (fs fs' : FileSystem) : Prop where
  workDir : fs'.workDir = fs.workDir
  directory : ∀ l, fs.get? l = some .directory → fs'.get? l = some .directory
  link : ∀ l target, fs.get? l = some (.link target) → fs'.get? l = some (.link target)

structure Alters (fs fs' : FileSystem) (l : Location) : Prop where
  workDir : fs'.workDir = fs.workDir
  get? : ∀ k, k ≠ l → fs'.get? k = fs.get? k
  directory : fs.get? l = some .directory → fs'.get? l = some .directory
  link_ne : ∀ target, fs.get? l ≠ some (.link target) ∧ fs'.get? l ≠ some (.link target)

def Faces (fs : FileSystem) (p : Path) (l : Location) : Prop :=
  (∀ q, fs.find q p = .ok (fs.spotAt l)) ∨ ∃ r, r ≠ .noEntry ∧ ∀ q, fs.find q p = .error r

section

variable {fs fs' fs'' : FileSystem} {l loc d : Location} {a : List String} {e : Entry} {p : Path}
  {n : Name} {jump jump' : Location → List String → Except Refusal Spot}

lemma Ways.refl (fs : FileSystem) : fs.Ways fs :=
  ⟨rfl, fun _ => id, fun _ _ => id⟩

lemma Ways.trans (h : fs.Ways fs') (h' : fs'.Ways fs'') : fs.Ways fs'' :=
  ⟨h'.workDir.trans h.workDir, fun l hl => h'.directory l (h.directory l hl),
    fun l target hl => h'.link l target (h.link l target hl)⟩

lemma Ways.descend (h : fs.Ways fs')
    (hj : ∀ loc a, jump loc a = .ok (.there l .directory) →
      jump' loc a = .ok (.there l .directory))
    (hd : fs.descend .target jump loc e a = .ok (.there l .directory)) :
    fs'.descend .target jump' loc e a = .ok (.there l .directory) := by
  induction a generalizing loc e with
  | nil => cases e <;> exact hd
  | cons n rest ih =>
    cases e with
    | file | link | pipe => cases hd
    | directory =>
      cases hturn : turn loc n with
      | some loc' =>
        rw [descend_turn hturn] at hd ⊢
        exact ih hd
      | none =>
        obtain ⟨hsize, hd⟩ := descend_name_eq_ok hturn hd
        rw [descend_name hturn (by simp) hsize, enter]
        rw [enter] at hd
        cases hn : fs.get? (n :: loc) with
        | none =>
          rw [hn] at hd
          by_cases hr : rest = [] <;> simp [hr] at hd
        | some c =>
          rw [hn] at hd
          cases c with
          | link target =>
            rw [h.link _ target hn]
            simp only [reduceCtorEq, and_false, if_false] at hd ⊢
            exact hj _ _ hd
          | directory =>
            rw [h.directory _ hn]
            exact ih hd
          | file | pipe => cases rest <;> cases hd

lemma Ways.walk (h : fs.Ways fs') {links : Nat}
    (hw : fs.walk .target links loc a = .ok (.there l .directory)) :
    fs'.walk .target links loc a = .ok (.there l .directory) := by
  induction links generalizing a loc with
  | zero => exact h.descend (fun _ _ hj => by cases hj) hw
  | succ links ih => exact h.descend (fun _ _ hj => ih hj) hw

lemma Leads.ways (hp : fs.Leads p l) (h : fs.Ways fs') : fs'.Leads p l := by
  obtain ⟨h1, h2, h3, hw⟩ := find_eq_walk hp
  have hstart : fs'.startOf p = fs.startOf p := by simp only [startOf, h.workDir]
  rw [Leads, find_of_walk h1 h2 (by rw [hstart]; exact h.directory _ h3), hstart]
  exact h.walk hw

lemma Leads.faces (h : fs.Leads p d) (hup : n.1 ≠ "..")
    (hl : ∀ target, fs.get? (n.1 :: d) ≠ some (.link target)) :
    fs.Faces (p.child n) (n.1 :: d) := by
  by_cases hfit : isEntryName n.1 = true ∧ (p.child n).byteLength ≤ pathLimit
  · exact .inl fun q => (h.denotes hfit.1 hfit.2).through q hl
  · exact .inr (h.refused hup hfit)

lemma Alters.ways (h : fs.Alters fs' l) : fs.Ways fs' where
  workDir := h.workDir
  directory k hk := by
    by_cases hkl : k = l
    · subst hkl
      exact h.directory hk
    · rwa [h.get? k hkl]
  link k target hk := by
    by_cases hkl : k = l
    · subst hkl
      exact absurd hk (h.link_ne target).1
    · rwa [h.get? k hkl]

lemma alters_refl (hl : ∀ target, fs.get? l ≠ some (.link target)) : fs.Alters fs l :=
  ⟨rfl, fun _ _ => rfl, id, fun target => ⟨hl target, hl target⟩⟩

lemma alters_set (hl : ∀ target, fs.get? l ≠ some (.link target))
    (he : ∀ target, e ≠ .link target) : fs.Alters (fs.set l e) l := by
  by_cases hc : fs.canHold l = true ∧ fs.get? l ≠ some .directory
  · refine ⟨(agrees_set fs l e).workDir, fun k hk => get?_set_ne fs e hk,
      fun hd => absurd hd hc.2, fun target => ⟨hl target, ?_⟩⟩
    rw [get?_set_self hc.1 hc.2]
    simpa using he target
  · rw [set, dif_neg hc]
    exact alters_refl hl

lemma alters_erase (hl : ∀ target, fs.get? l ≠ some (.link target))
    (hd : fs.get? l ≠ some .directory) : fs.Alters (fs.erase l) l := by
  refine ⟨(agrees_erase fs l).workDir, fun k hk => ?_, fun h => absurd h hd,
    fun target => ⟨hl target, by simp [get?_erase_self hd]⟩⟩
  rw [get?_erase fs l k hd, if_neg hk]

lemma Faces.removeFile (h : fs.Faces p l) (hl : ∀ target, fs.get? l ≠ some (.link target))
    (hr : fs.removeFile p = .ok fs') : fs.Alters fs' l := by
  obtain ⟨k, e, hk, he, rfl⟩ := removeFile_eq_ok hr
  rcases h with h | ⟨r, -, h⟩
  · obtain ⟨rfl, hget⟩ := spotAt_eq_there (Except.ok.inj ((h .entry).symm.trans hk))
    exact alters_erase hl (by simpa [hget] using he)
  · cases (h .entry).symm.trans hk

lemma Faces.writeFile (h : fs.Faces p l) (hl : ∀ target, fs.get? l ≠ some (.link target))
    {bytes : ByteArray} (hw : fs.writeFile p bytes = .ok fs') : fs.Alters fs' l := by
  rcases h with h | ⟨r, -, h⟩
  · rw [FileSystem.writeFile, h] at hw
    cases hs : fs.spotAt l with
    | vacant k =>
      obtain ⟨rfl, -⟩ := spotAt_eq_vacant hs
      rw [hs] at hw
      cases hw
      exact alters_set hl (by simp)
    | there k e =>
      obtain ⟨rfl, -⟩ := spotAt_eq_there hs
      rw [hs] at hw
      cases e <;> cases hw
      · exact alters_set hl (by simp)
      · exact alters_refl hl
      · exact alters_refl hl
  · rw [FileSystem.writeFile, h] at hw
    cases hw

lemma Faces.setMode (h : fs.Faces p l) (hl : ∀ target, fs.get? l ≠ some (.link target))
    {mode : Nat} (hm : fs.setMode p mode = .ok fs') : fs.Alters fs' l := by
  rcases h with h | ⟨r, -, h⟩
  · rw [FileSystem.setMode, h] at hm
    cases hs : fs.spotAt l with
    | vacant k =>
      rw [hs] at hm
      cases hm
    | there k e =>
      obtain ⟨rfl, -⟩ := spotAt_eq_there hs
      rw [hs] at hm
      cases e <;> cases hm
      · exact alters_refl hl
      · exact alters_set hl (by simp)
      · exact alters_refl hl
      · exact alters_refl hl
  · rw [FileSystem.setMode, h] at hm
    cases hm

end

end FileSystem

namespace FileAction

open Attempt FileSystem

def Maintains {α : Type} (I : FileSystem → Prop) (a : FileAction α) : Prop :=
  ∀ fs, I fs → I (a fs).2

section

variable {α β : Type} {I : FileSystem → Prop} {source dest : Path} {a : FileAction α}

lemma Maintains.bind {f : α → FileAction β} (h : Maintains I a) (hf : ∀ x, Maintains I (f x)) :
    Maintains I (a >>= f) := by
  intro fs hfs
  have ha := h fs hfs
  rw [bind_apply]
  rcases hx : a fs with ⟨e | x, fs'⟩
  · rwa [hx] at ha
  · rw [hx] at ha
    exact hf x fs' ha

lemma maintains_pure (x : α) : Maintains I (pure x : FileAction α) := fun _ => id

lemma maintains_fail (e : Failure) : Maintains I (fail e : FileAction α) := fun _ => id

lemma maintains_ask (question : FileSystem → Path → Except Refusal α) (p : Path) :
    Maintains I (ask question p) := by
  intro fs hfs
  rwa [ask_snd]

lemma maintains_change {operation : FileSystem → Path → Except Refusal FileSystem} {p : Path}
    (h : ∀ fs fs', I fs → operation fs p = .ok fs' → I fs') :
    Maintains I (change operation p) := by
  intro fs hfs
  rw [change]
  cases ho : operation fs p with
  | error r => exact hfs
  | ok fs' => exact h fs fs' hfs ho

lemma makeRoom_maintains
    (hremove : ∀ fs fs', I fs → fs.removeFile dest = .ok fs' → I fs') :
    Maintains I (makeRoom dest) := by
  intro fs hfs
  rcases makeRoom_state dest fs with hs | hs
  · rwa [hs]
  · exact hremove fs _ hfs hs

lemma copyMode_maintains
    (hmode : ∀ fs fs' mode, I fs → fs.setMode dest mode = .ok fs' → I fs') :
    Maintains I (copyMode source dest) :=
  (maintains_ask modeAt source).bind fun mode =>
    maintains_change fun fs fs' => hmode fs fs' mode

lemma expandInto_maintains (ctx : Context)
    (hwrite : ∀ fs fs' bytes, I fs → fs.writeFile dest bytes = .ok fs' → I fs') :
    Maintains I (expandInto source dest ctx) := by
  refine (maintains_ask FileSystem.readFile source).bind fun _ =>
    (maintains_change fun fs fs' => hwrite fs fs' _).bind fun _ =>
    (maintains_ask FileSystem.readFile source).bind fun bytes => ?_
  cases Text.Utf8.decode bytes with
  | error f => exact maintains_fail _
  | ok s =>
    intro fs hfs
    simp only [writeRendering]
    cases hw : fs.writeFile dest _ with
    | error r => exact hfs
    | ok fs' => exact hwrite fs fs' _ hfs hw

variable (hremove : ∀ fs fs', I fs → fs.removeFile dest = .ok fs' → I fs')
  (hwrite : ∀ fs fs' bytes, I fs → fs.writeFile dest bytes = .ok fs' → I fs')
  (hmode : ∀ fs fs' mode, I fs → fs.setMode dest mode = .ok fs' → I fs')

include hremove hwrite hmode

lemma copyFile_maintains : Maintains I (copyFile source dest) := by
  refine (makeRoom_maintains hremove).bind fun _ => (maintains_ask isPipe dest).bind fun pipe => ?_
  by_cases hpipe : pipe = true
  · rw [if_pos hpipe]
    exact maintains_fail _
  · rw [if_neg hpipe]
    exact (maintains_ask FileSystem.readFile source).bind fun bytes =>
      (maintains_change fun fs fs' => hwrite fs fs' bytes).bind fun _ => copyMode_maintains hmode

lemma handle_maintains (ctx : Context) (action : Action) {e : Entry} (hdir : e ≠ .directory)
    (hlink : ∀ target, e ≠ .link target) : Maintains I (Walk.handle ctx source action dest e) := by
  cases e with
  | directory => exact absurd rfl hdir
  | link target => exact absurd rfl (hlink target)
  | pipe => exact maintains_fail _
  | file bytes mode =>
    rw [Walk.handle]
    by_cases hmake : action = .make
    · rw [if_pos hmake]
      exact (makeRoom_maintains hremove).bind fun _ =>
        (expandInto_maintains ctx hwrite).bind fun _ =>
        (copyMode_maintains hmode).bind fun _ => maintains_pure _
    · rw [if_neg hmake]
      exact (copyFile_maintains hremove hwrite hmode).bind fun _ => maintains_pure _

end

end FileAction

end Scaffold
