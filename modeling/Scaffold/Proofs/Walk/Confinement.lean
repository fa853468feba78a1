import Scaffold.Proofs.Walk.Directories
import Scaffold.Proofs.Walk.Making

namespace Scaffold

namespace FileSystem

structure ChangesBelow (fs fs' : FileSystem) (loc : Location) : Prop where
  workDir : fs'.workDir = fs.workDir
  get? : ∀ l, ¬ (loc <:+ l ∧ l ≠ loc) → fs'.get? l = fs.get? l

section

variable {fs fs' fs'' : FileSystem} {loc loc' : Location} {k : String}

lemma ChangesBelow.refl (fs : FileSystem) (loc : Location) : fs.ChangesBelow fs loc :=
  ⟨rfl, fun _ _ => rfl⟩

lemma ChangesBelow.trans (h : fs.ChangesBelow fs' loc) (h' : fs'.ChangesBelow fs'' loc) :
    fs.ChangesBelow fs'' loc :=
  ⟨h'.workDir.trans h.workDir, fun l hl => (h'.get? l hl).trans (h.get? l hl)⟩

lemma ChangesBelow.outside (h : fs.ChangesBelow fs' loc) : fs.AgreesOutside fs' loc :=
  ⟨h.workDir, fun l hl => h.get? l fun hs => hl hs.1⟩

lemma AgreesOutside.below (h : fs.AgreesOutside fs' (k :: loc)) : fs.ChangesBelow fs' loc := by
  refine ⟨h.workDir, fun l hl => h.get? l fun hs => hl ⟨(List.suffix_cons k loc).trans hs, ?_⟩⟩
  rintro rfl
  exact not_suffix_parent k l hs

lemma ChangesBelow.widen (h : fs.ChangesBelow fs' loc) (hl : loc' <:+ loc) :
    fs.ChangesBelow fs' loc' := by
  refine ⟨h.workDir, fun l hn => h.get? l fun hs => hn ⟨hl.trans hs.1, ?_⟩⟩
  rintro rfl
  exact hs.2 (hs.1.eq_of_length_le hl.length_le).symm

lemma ChangesBelow.above (h : fs.ChangesBelow fs' (k :: loc)) : fs.ChangesBelow fs' loc :=
  h.outside.below

end

def Refused (fs : FileSystem) (p : Path) (l : Location) : Prop :=
  ∀ fs', fs.AgreesOutside fs' l → ∃ r, r ≠ .noEntry ∧ ∀ q, fs'.find q p = .error r

def Site (fs : FileSystem) (p : Path) (l : Location) : Prop :=
  fs.Place p l ∧ fs.get? l ≠ some .pipe ∨ fs.Refused p l

def Cleared (fs : FileSystem) (p : Path) (l : Location) : Prop :=
  fs.Place p l ∧ (∀ target, fs.get? l ≠ some (.link target)) ∨ fs.Refused p l

section

variable {fs fs' : FileSystem} {p : Path} {l : Location}

lemma Refused.find (h : fs.Refused p l) : ∃ r, r ≠ .noEntry ∧ ∀ q, fs.find q p = .error r :=
  h fs (.refl fs l)

lemma Place.find_entry (h : fs.Place p l) : fs.find .entry p = .ok (fs.spotAt l) :=
  (h.denotes fs (.refl fs l)).entry

lemma Place.find_through (h : fs.Place p l) (hl : ∀ target, fs.get? l ≠ some (.link target))
    (q : Purpose) : fs.find q p = .ok (fs.spotAt l) :=
  (h.denotes fs (.refl fs l)).through q hl

lemma Site.find_ne (h : fs.Site p l) : fs.find .entry p ≠ .error .noEntry := by
  rcases h with ⟨h, -⟩ | h
  · simp [h.find_entry]
  · obtain ⟨r, hr, hq⟩ := h.find
    simp [hq, hr]

lemma Site.eq_of_vacant {l' : Location} (h : fs.Site p l)
    (hv : fs.find .entry p = .ok (.vacant l')) : l' = l := by
  rcases h with ⟨h, -⟩ | h
  · exact (spotAt_eq_vacant (Except.ok.inj (h.find_entry.symm.trans hv))).1
  · obtain ⟨r, -, hq⟩ := h.find
    simp [hq] at hv

lemma Site.agrees_removeFile (h : fs.Site p l) (hr : fs.removeFile p = .ok fs') :
    fs.AgreesOutside fs' l := by
  rcases h with ⟨h, -⟩ | h
  · rw [removeFile, h.find_entry] at hr
    cases hs : fs.spotAt l with
    | vacant l' =>
      rw [hs] at hr
      cases hr
    | there l' e =>
      obtain ⟨rfl, -⟩ := spotAt_eq_there hs
      rw [hs] at hr
      cases e with
      | directory => cases hr
      | file | link | pipe =>
        cases hr
        exact agrees_erase fs l'
  · obtain ⟨r, -, hq⟩ := h.find
    rw [removeFile, hq] at hr
    cases hr

lemma Cleared.agrees_makeLink {target : String} (h : fs.Cleared p l)
    (hm : fs.makeLink target p = .ok fs') : fs.AgreesOutside fs' l := by
  rcases h with ⟨h, -⟩ | h
  · rw [makeLink, h.find_entry] at hm
    cases hs : fs.spotAt l with
    | vacant l' =>
      obtain ⟨rfl, -⟩ := spotAt_eq_vacant hs
      rw [hs] at hm
      cases hm
      exact agrees_set fs l' _
    | there l' e =>
      rw [hs] at hm
      cases hm
  · obtain ⟨r, -, hq⟩ := h.find
    rw [makeLink, hq] at hm
    cases hm

lemma Cleared.set (h : fs.Cleared p l) (hd : fs.get? l ≠ some .directory) (bytes : ByteArray)
    (mode : Nat) : (fs.set l (.file bytes mode)).Cleared p l := by
  rcases h with ⟨h, -⟩ | h
  · refine .inl ⟨h.agrees (agrees_set fs l _), fun target => ?_⟩
    rw [get?_set_self h.holds hd]
    simp
  · exact .inr fun fs' ha => h fs' ((agrees_set fs l _).trans ha)

lemma Cleared.writeFile {bytes : ByteArray} (h : fs.Cleared p l)
    (hw : fs.writeFile p bytes = .ok fs') : fs.AgreesOutside fs' l ∧ fs'.Cleared p l := by
  have h' := h
  rcases h' with ⟨hp, hl⟩ | hr
  · rw [FileSystem.writeFile, hp.find_through hl] at hw
    cases hs : fs.spotAt l with
    | vacant l' =>
      obtain ⟨rfl, hn⟩ := spotAt_eq_vacant hs
      rw [hs] at hw
      cases hw
      exact ⟨agrees_set fs l' _, h.set (by simp [hn]) _ _⟩
    | there l' e =>
      obtain ⟨rfl, he⟩ := spotAt_eq_there hs
      rw [hs] at hw
      cases e with
      | directory => cases hw
      | file old mode =>
        cases hw
        exact ⟨agrees_set fs l' _, h.set (by simp [he]) _ _⟩
      | link | pipe =>
        cases hw
        exact ⟨.refl fs l', h⟩
  · obtain ⟨r, -, hq⟩ := hr.find
    rw [FileSystem.writeFile, hq] at hw
    cases hw

lemma Cleared.agrees_setMode {mode : Nat} (h : fs.Cleared p l)
    (hm : fs.setMode p mode = .ok fs') : fs.AgreesOutside fs' l := by
  rcases h with ⟨h, hl⟩ | h
  · rw [setMode, h.find_through hl] at hm
    cases hs : fs.spotAt l with
    | vacant l' =>
      rw [hs] at hm
      cases hm
    | there l' e =>
      obtain ⟨rfl, -⟩ := spotAt_eq_there hs
      rw [hs] at hm
      cases e <;> cases hm
      · exact .refl fs l'
      · exact agrees_set fs l' _
      · exact .refl fs l'
      · exact .refl fs l'
  · obtain ⟨r, -, hq⟩ := h.find
    rw [setMode, hq] at hm
    cases hm

end

section

variable {see : Forest → FileSystem} {out : Path} {loc : Location} {acc : Forest} {n : Name}

lemma Window.changesBelow (w : Window see out loc) (hacc : acc.Proper) {acc' : Forest}
    (hacc' : acc'.Proper) : (see acc).ChangesBelow (see acc') loc := by
  have ha := (w.agrees acc hacc).symm.trans (w.agrees acc' hacc')
  refine ⟨ha.workDir, fun l hl => ?_⟩
  by_cases hs : loc <:+ l
  · obtain rfl : l = loc := by
      by_contra hne
      exact hl ⟨hs, hne⟩
    exact (w.holds acc' hacc').get?_self.trans (w.holds acc hacc).get?_self.symm
  · exact ha.get? l hs

lemma Window.site (w : Window see out loc) (hacc : acc.Proper) (hup : n.1 ≠ "..") :
    (see acc).Site (out.child n) (n.1 :: loc) := by
  by_cases h : isEntryName n.1 = true ∧ (out.child n).byteLength ≤ pathLimit
  · exact .inl ⟨w.place hacc h.1 h.2, w.get?_child_ne hacc⟩
  · exact .inr fun fs ha => (w.leads.extends (w.leads_of_agrees hacc ha)).refused hup h

end

end FileSystem

namespace FileAction

open Attempt FileSystem

def Confined {α : Type} (l : Location) (a : FileAction α) (fs : FileSystem)
    (post : FileSystem → Prop) : Prop :=
  fs.AgreesOutside (a fs).2 l ∧ ∀ x fs', a fs = (.ok x, fs') → post fs'

section

variable {α β : Type} {fs fs' : FileSystem} {p source : Path} {l : Location} {a : FileAction α}
  {post post' : FileSystem → Prop}

lemma Confined.bind {f : α → FileAction β} (h : Confined l a fs post)
    (hf : ∀ x fs', post fs' → Confined l (f x) fs' post') : Confined l (a >>= f) fs post' := by
  obtain ⟨ha, hpost⟩ := h
  rw [Confined, bind_apply]
  rcases hx : a fs with ⟨e | x, t⟩
  · rw [hx] at ha
    exact ⟨ha, fun _ _ h => by cases h⟩
  · rw [hx] at ha
    obtain ⟨hb, hpost'⟩ := hf x t (hpost x t hx)
    exact ⟨ha.trans hb, hpost'⟩

lemma Confined.mapFailure (h : Confined l a fs post) (f : Failure → Failure) :
    Confined l (mapFailure f a) fs post := by
  refine ⟨?_, fun x fs' hx => ?_⟩
  · rw [mapFailure_snd]
    exact h.1
  · rw [Attempt.mapFailure] at hx
    rcases ha : a fs with ⟨e | y, t⟩
    · rw [ha] at hx
      cases hx
    · rw [ha] at hx
      cases hx
      exact h.2 x fs' ha

lemma Confined.agrees {x : α} (h : Confined l a fs post) (hx : a fs = (.ok x, fs')) :
    fs.AgreesOutside fs' l := by
  have ha := h.1
  rw [hx] at ha
  exact ha

lemma confined_of_state (h : (a fs).2 = fs) (hp : post fs) : Confined l a fs post := by
  refine ⟨?_, fun x fs' hx => ?_⟩
  · rw [h]
    exact .refl fs l
  · rw [hx] at h
    obtain rfl : fs' = fs := h
    exact hp

lemma ask_snd (question : FileSystem → Path → Except Refusal α) (p : Path) (fs : FileSystem) :
    (ask question p fs).2 = fs := by
  rw [ask]
  cases question fs p <;> rfl

lemma confined_ask_bind {question : FileSystem → Path → Except Refusal α}
    {f : α → FileAction β} (hf : ∀ x, Confined l (f x) fs post) :
    Confined l (ask question p >>= f) fs post := by
  have hask : Confined l (ask question p) fs (· = fs) :=
    confined_of_state (ask_snd question p fs) (Eq.refl fs)
  exact hask.bind fun x fs' hfs => hfs ▸ hf x

lemma confined_change {operation : FileSystem → Path → Except Refusal FileSystem}
    (h : ∀ fs', operation fs p = .ok fs' → fs.AgreesOutside fs' l ∧ post fs') :
    Confined l (change operation p) fs post := by
  rw [Confined, change]
  cases ho : operation fs p with
  | error r => exact ⟨.refl fs l, fun _ _ hx => by cases hx⟩
  | ok fs' => exact ⟨(h fs' ho).1, fun _ _ hx => by cases hx; exact (h fs' ho).2⟩

lemma confined_fail (e : Failure) : Confined l (fail e : FileAction α) fs post :=
  ⟨.refl fs l, fun _ _ hx => by cases hx⟩

lemma makeRoom_state (p : Path) (fs : FileSystem) :
    (makeRoom p fs).2 = fs ∨ fs.removeFile p = .ok (makeRoom p fs).2 := by
  have hremove : (change FileSystem.removeFile p fs).2 = fs ∨
      fs.removeFile p = .ok (change FileSystem.removeFile p fs).2 := by
    rw [change]
    cases hr : fs.removeFile p with
    | error r => exact .inl rfl
    | ok fs' => exact .inr rfl
  rw [makeRoom, bind_apply, ask]
  rcases fs.isLink p with r | (_ | _)
  · exact .inl rfl
  · simp only [Bool.false_eq_true, if_false]
    rw [bind_apply, ask]
    rcases fs.isFile p with r | (_ | _)
    · exact .inl rfl
    · simp only [Bool.false_eq_true, if_false]
      rw [bind_apply, ask]
      rcases fs.isDirectory p with r | (_ | _) <;> exact .inl rfl
    · exact hremove
  · exact hremove

lemma makeRoom_confined (h : fs.Site p l) :
    Confined l (makeRoom p) fs fun fs' => fs'.Cleared p l := by
  refine ⟨?_, fun u fs' hu => ?_⟩
  · rcases makeRoom_state p fs with hs | hs
    · rw [hs]
      exact .refl fs l
    · exact h.agrees_removeFile hs
  · rcases h with ⟨hplace, hpipe⟩ | hr
    · by_cases hd : fs.get? l = some .directory
      · have hfails := makeRoom_directory (hplace.denotes _ (.refl _ _)) hd
        rw [hu] at hfails
        exact absurd hfails (not_fails_ok u fs')
      · obtain rfl := congrArg Prod.snd ((makeRoom_of_leaf hplace hd hpipe).symm.trans hu)
        exact .inl ⟨hplace.erase, fun target => by simp [get?_erase_self hd]⟩
    · obtain ⟨r, -, hq⟩ := hr.find
      exact makeRoom_of_refused hq u fs' hu ▸ .inr hr

lemma copyLink_confined (h : fs.Site p l) :
    Confined l (copyLink source p) fs fun _ => True := by
  refine (makeRoom_confined h).bind fun _ _ hc => confined_ask_bind fun target => ?_
  exact confined_change fun _ hm => ⟨hc.agrees_makeLink hm, trivial⟩

lemma writeFile_confined {bytes : ByteArray} (h : fs.Cleared p l) :
    Confined l (change (·.writeFile · bytes) p) fs fun fs' => fs'.Cleared p l :=
  confined_change fun _ hw => h.writeFile hw

lemma copyMode_confined (h : fs.Cleared p l) :
    Confined l (copyMode source p) fs fun _ => True := by
  exact confined_ask_bind fun mode => confined_change fun _ hm => ⟨h.agrees_setMode hm, trivial⟩

lemma copyFile_confined (h : fs.Site p l) :
    Confined l (copyFile source p) fs fun _ => True := by
  refine (makeRoom_confined h).bind fun _ _ hc => confined_ask_bind fun pipe => ?_
  by_cases hpipe : pipe = true
  · rw [if_pos hpipe]
    exact confined_fail _
  · rw [if_neg hpipe]
    refine confined_ask_bind fun bytes => ?_
    exact (writeFile_confined hc).bind fun _ _ hc => copyMode_confined hc

lemma writeRendering_confined (h : fs.Cleared p l) (render : FileSystem → Expr.Rendering Unit) :
    Confined l (writeRendering p render) fs fun fs' => fs'.Cleared p l := by
  rw [Confined, writeRendering]
  cases hw : fs.writeFile p (String.ofList (render fs).text).toUTF8 with
  | error r => exact ⟨.refl fs l, fun _ _ hx => by cases hx⟩
  | ok fs' =>
    obtain ⟨ha, hc⟩ := h.writeFile hw
    exact ⟨ha, fun _ _ hx => (Prod.mk.inj hx).2 ▸ hc⟩

lemma expandInto_confined (h : fs.Cleared p l) (ctx : Context) :
    Confined l (expandInto source p ctx) fs fun fs' => fs'.Cleared p l := by
  refine confined_ask_bind fun _ => (writeFile_confined h).bind fun _ _ hc => ?_
  refine confined_ask_bind fun bytes => ?_
  cases Text.Utf8.decode bytes with
  | error f => exact confined_fail _
  | ok s => exact writeRendering_confined hc _

lemma makeDirectories_confined (h : fs.Site p l) :
    Confined l (makeDirectories p) fs fun _ => True := by
  have hno : fs.makeDirectory p ≠ .error .noEntry := by
    intro hm
    rw [makeDirectory] at hm
    rcases hf : fs.find .entry p with r | (⟨l', e⟩ | l')
    · rw [hf] at hm
      exact h.find_ne (hf.trans (congrArg Except.error (Except.error.inj hm)))
    · simp [hf] at hm
    · simp [hf] at hm
  rw [Confined, makeDirectories_eq hno]
  refine ⟨?_, fun _ _ _ => trivial⟩
  rcases makeOneDirectory_cases p fs with ⟨l', hv, hm⟩ | ⟨-, hm⟩ | ⟨e, hm⟩
  · rw [hm, h.eq_of_vacant hv]
    exact agrees_set fs l _
  · rw [hm]
    exact .refl fs l
  · rw [hm]
    exact .refl fs l

end

end FileAction

end Scaffold
