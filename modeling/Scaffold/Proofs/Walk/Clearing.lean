import Scaffold.Proofs.FileSystem.Lookups
import Scaffold.Proofs.FileSystem.Writing
import Scaffold.Proofs.Walk.Confinement

namespace Scaffold

namespace FileSystem

def Finds (fs : FileSystem) (p : Path) : Prop :=
  ∃ q s, fs.find q p = .ok s

def Frees (fs fs' : FileSystem) (p : Path) : Prop :=
  fs' = fs ∨ fs.removeFile p = .ok fs'

structure Clears (fs fs' : FileSystem) (p : Path) : Prop where
  frees : fs.Frees fs' p
  no_link : fs'.isLink p ≠ .ok true
  no_file : fs'.isFile p ≠ .ok true
  no_pipe : fs.entryAt p ≠ .ok .pipe → fs'.targetAt p ≠ .ok .pipe

def Fills (fs fs' : FileSystem) (p : Path) : Prop :=
  fs' = fs ∨
    ∃ q l, fs.find q p = .ok (.vacant l) ∧ fs.isLink p ≠ .ok true ∧ fs.AgreesOutside fs' l

section

variable {fs fs' fs'' : FileSystem} {p : Path} {l d : Location} {e : Entry} {n : Name}
  {q : Purpose} {bytes : ByteArray}

lemma removeFile_eq_ok (h : fs.removeFile p = .ok fs') :
    ∃ l e, fs.find .entry p = .ok (.there l e) ∧ e ≠ .directory ∧ fs' = fs.erase l := by
  rw [removeFile] at h
  rcases hf : fs.find .entry p with r | (⟨l, e⟩ | l)
  · rw [hf] at h
    cases h
  · rw [hf] at h
    cases e with
    | directory => cases h
    | file | link | pipe => exact ⟨l, _, rfl, by simp, (Except.ok.inj h).symm⟩
  · rw [hf] at h
    cases h

lemma entry_of_targetAt (h : fs.targetAt p = .ok e) :
    ∃ l d, fs.find .entry p = .ok (.there l d) := by
  obtain ⟨k, hk⟩ := targetAt_eq_ok h
  obtain ⟨hnul, hlen, hstart, hw⟩ := find_eq_walk hk
  rw [find_of_walk hnul hlen hstart]
  exact walk_entry hw

lemma entryAt_removed (h : fs.removeFile p = .ok fs') : fs'.entryAt p ≠ .ok e := by
  intro he
  obtain ⟨l, d, hl, hd, rfl⟩ := removeFile_eq_ok h
  obtain ⟨l', hl'⟩ := entryAt_eq_ok he
  have hsame := find_sees (erase_extends fs l) (.inl rfl) hl'
  rw [hl] at hsame
  cases hsame
  have hget := get?_of_there hl'
  rw [get?_erase_self (by simpa [get?_of_there hl] using hd)] at hget
  cases hget

lemma targetAt_removed (h : fs.removeFile p = .ok fs') : fs'.targetAt p ≠ .ok e := by
  intro he
  obtain ⟨l, d, hd⟩ := entry_of_targetAt he
  exact entryAt_removed h (e := d) (by rw [entryAt, hd])

lemma entryAt_of_targetAt (h : fs.targetAt p = .ok e) (hlink : fs.isLink p = .ok false) :
    fs.entryAt p = .ok e := by
  obtain ⟨l, d, hd⟩ := entry_of_targetAt h
  have hentry : fs.entryAt p = .ok d := by rw [entryAt, hd]
  have hne : ∀ target, d ≠ .link target := by
    rintro target rfl
    rw [isLink, hentry] at hlink
    cases hlink
  have htarget := find_sees (.refl fs) (.inr ⟨rfl, hne⟩) hd
  rw [targetAt, htarget] at h
  rw [hentry, Except.ok.inj h]

lemma finds_of_readLink {target : String} (h : fs.readLink p = .ok target) : fs.Finds p := by
  rw [readLink] at h
  cases he : fs.entryAt p with
  | error r =>
    rw [he] at h
    cases h
  | ok e =>
    obtain ⟨l, hl⟩ := entryAt_eq_ok he
    exact ⟨_, _, hl⟩

lemma finds_of_readFile (h : fs.readFile p = .ok bytes) : fs.Finds p := by
  rw [readFile] at h
  cases ht : fs.targetAt p with
  | error r =>
    rw [ht] at h
    cases h
  | ok e =>
    obtain ⟨l, hl⟩ := targetAt_eq_ok ht
    exact ⟨_, _, hl⟩

lemma Frees.extends (h : fs.Frees fs' p) : fs'.Extends fs := by
  rcases h with rfl | h
  · exact .refl fs'
  · obtain ⟨l, -, -, -, rfl⟩ := removeFile_eq_ok h
    exact erase_extends fs l

lemma Fills.extends (h : fs.Fills fs' p) : fs.Extends fs' := by
  rcases h with rfl | ⟨q, l, hl, -, ha⟩
  · exact .refl fs'
  · exact extends_of_agrees ha (get?_of_vacant hl)

lemma Frees.keeps (h : fs.Frees fs' p) (hd : fs.get? l = some .directory) :
    fs'.get? l = some .directory := by
  rcases h with rfl | h
  · exact hd
  · obtain ⟨k, e, hk, he, rfl⟩ := removeFile_eq_ok h
    have hkd : fs.get? k ≠ some .directory := by simpa [get?_of_there hk] using he
    rw [get?_erase fs k l hkd, if_neg, hd]
    rintro rfl
    exact hkd hd

lemma Leads.fits (h : fs.Leads p d) (hup : n.1 ≠ "..") {s : Spot}
    (hf : fs.find q (p.child n) = .ok s) :
    isEntryName n.1 = true ∧ (p.child n).byteLength ≤ pathLimit := by
  by_contra hfit
  obtain ⟨r, -, hr⟩ := h.refused hup hfit
  cases (hr q).symm.trans hf

lemma Leads.child_vacant (h : fs.Leads p d) (hup : n.1 ≠ "..") (hnone : fs.get? (n.1 :: d) = none)
    {s : Spot} (hf : fs.find .entry (p.child n) = .ok s) : s = .vacant (n.1 :: d) := by
  obtain ⟨hn, hlen⟩ := h.fits hup hf
  exact Except.ok.inj (hf.symm.trans ((h.denotes hn hlen).find_vacant hnone .entry))

lemma Leads.agrees_frees (h : fs.Leads p d) (hup : n.1 ≠ "..")
    (hfrees : fs.Frees fs' (p.child n)) : fs.AgreesOutside fs' (n.1 :: d) := by
  rcases hfrees with rfl | hremove
  · exact .refl fs' _
  · obtain ⟨l, e, hl, -, rfl⟩ := removeFile_eq_ok hremove
    obtain ⟨hn, hlen⟩ := h.fits hup hl
    have hspot := Except.ok.inj ((h.denotes hn hlen).entry.symm.trans hl)
    obtain ⟨rfl, -⟩ := spotAt_eq_there hspot
    exact agrees_erase fs _

lemma Leads.agrees_fills (h : fs''.Leads p d) (hg : fs.Extends fs'') (hup : n.1 ≠ "..")
    (hfills : fs.Fills fs' (p.child n)) : fs.AgreesOutside fs' (n.1 :: d) := by
  rcases hfills with rfl | ⟨q, l, hl, hlink, ha⟩
  · exact .refl fs' _
  · have hd := h.of_child hg hl
    obtain ⟨hn, hlen⟩ := hd.fits hup hl
    have hden := hd.denotes hn hlen
    have hne : ∀ target, fs.get? (n.1 :: d) ≠ some (.link target) := by
      intro target ht
      rw [hden.isLink, ht] at hlink
      exact hlink rfl
    have hspot := Except.ok.inj ((hden.through q hne).symm.trans hl)
    obtain ⟨rfl, -⟩ := spotAt_eq_vacant hspot
    exact ha

lemma setMode_of_no_file {mode : Nat} (hfile : fs.isFile p ≠ .ok true)
    (h : fs.setMode p mode = .ok fs') : fs' = fs := by
  rw [setMode] at h
  rcases hf : fs.find .target p with r | (⟨l, e⟩ | l)
  · rw [hf] at h
    cases h
  · rw [hf] at h
    cases e with
    | file b m => exact absurd (isFile_eq_true_iff.mpr ⟨b, m, by rw [targetAt, hf]⟩) hfile
    | directory | link | pipe => exact (Except.ok.inj h).symm
  · rw [hf] at h
    cases h

lemma fills_writeFile (hlink : fs.isLink p ≠ .ok true) (hfile : fs.isFile p ≠ .ok true)
    (hw : fs.writeFile p bytes = .ok fs') :
    fs.Finds p ∧ fs.Fills fs' p ∧
      ∀ mode fs'', fs'.setMode p mode = .ok fs'' → fs.Fills fs'' p := by
  have hsame (h : fs' = fs) : fs.Fills fs' p ∧
      ∀ mode fs'', fs'.setMode p mode = .ok fs'' → fs.Fills fs'' p := by
    subst h
    exact ⟨.inl rfl, fun mode fs'' hset => .inl (setMode_of_no_file hfile hset)⟩
  rw [writeFile] at hw
  rcases hf : fs.find .writing p with r | s
  · rw [hf] at hw
    cases hw
  obtain ⟨l, rfl⟩ := find_eq_spotAt hf
  have ht := (Rewritten.refl fs).find (.inr ⟨rfl, rfl⟩) hf
  refine ⟨⟨_, _, hf⟩, ?_⟩
  rw [hf] at hw
  cases hl : fs.get? l with
  | some e =>
    rw [spotAt_of_some hl] at hw ht
    cases e with
    | directory => cases hw
    | file b m => exact absurd (isFile_eq_true_iff.mpr ⟨b, m, by rw [targetAt, ht]⟩) hfile
    | link | pipe => exact hsame (Except.ok.inj hw).symm
  | none =>
    rw [spotAt_of_none hl] at hw hf
    obtain rfl := Except.ok.inj hw
    by_cases hc : fs.canHold l = true
    swap
    · exact hsame (by rw [FileSystem.set, dif_neg fun h => hc h.1])
    have hspare : fs.Spare l := fun e he => by simp [hl] at he
    obtain ⟨hgrow, hget⟩ := hspare.set hc bytes newFileMode
    have ha := agrees_set fs l (.file bytes newFileMode)
    refine ⟨.inr ⟨_, l, hf, hlink, ha⟩, fun mode fs'' hset => .inr ⟨_, l, hf, hlink, ha.trans ?_⟩⟩
    rw [setMode, hgrow.find (.inl rfl) ht, spotAt_of_some hget] at hset
    exact Except.ok.inj hset ▸ agrees_set _ l _

end

end FileSystem

namespace FileAction

open Attempt FileSystem

def Replaces {α : Type} (source dest : Path) (a : FileAction α) (fs : FileSystem) : Prop :=
  ∃ fs₁, fs.Frees fs₁ dest ∧ fs₁.Fills (a fs).2 dest ∧
    ∀ x, (a fs).1 = .ok x → fs₁.Finds source ∧ fs₁.Finds dest

section

variable {α β : Type} {fs fs' : FileSystem} {source dest : Path} {a : FileAction α}

lemma makeRoom_clears {u : Unit} (h : makeRoom dest fs = (.ok u, fs')) : fs.Clears fs' dest := by
  have hremoved (hr : change FileSystem.removeFile dest fs = (.ok u, fs')) :
      fs.Clears fs' dest := by
    have hremove := change_eq_ok hr
    refine ⟨.inr hremove, fun hl => ?_, fun hf => ?_, fun _ => targetAt_removed hremove⟩
    · obtain ⟨d, hd, -⟩ := ask_eq_true_iff.mp hl
      exact entryAt_removed hremove hd
    · obtain ⟨b, m, hb⟩ := isFile_eq_true_iff.mp hf
      exact targetAt_removed hremove hb
  obtain ⟨link, fs₁, hlink, h⟩ := bind_eq_ok h
  obtain ⟨rfl, hlink⟩ := ask_state hlink
  cases link with
  | true => exact hremoved h
  | false =>
    obtain ⟨file, fs₂, hfile, h⟩ := bind_eq_ok h
    obtain ⟨rfl, hfile⟩ := ask_state hfile
    cases file with
    | true => exact hremoved h
    | false =>
      obtain ⟨dir, fs₃, hdir, h⟩ := bind_eq_ok h
      obtain ⟨rfl, -⟩ := ask_state hdir
      cases dir with
      | true => cases h
      | false =>
        cases h
        exact ⟨.inl rfl, by simp [hlink], by simp [hfile],
          mt fun ht => entryAt_of_targetAt ht hlink⟩

lemma replaces_of_room {rest : FileAction α}
    (h : ∀ fs₁, fs.Clears fs₁ dest → fs₁.Fills (rest fs₁).2 dest ∧
      ∀ x, (rest fs₁).1 = .ok x → fs₁.Finds source ∧ fs₁.Finds dest) :
    Replaces source dest (makeRoom dest >>= fun _ => rest) fs := by
  have hstate := makeRoom_state dest fs
  rw [Replaces, bind_apply]
  rcases hroom : makeRoom dest fs with ⟨e | u, fs₁⟩
  · rw [hroom] at hstate
    exact ⟨fs₁, hstate, .inl rfl, by simp⟩
  · have hclear := makeRoom_clears hroom
    exact ⟨fs₁, hclear.frees, h fs₁ hclear⟩

lemma Replaces.pure (h : Replaces source dest a fs) (y : β) :
    Replaces source dest (a >>= fun _ => Pure.pure y) fs := by
  obtain ⟨fs₁, hfrees, hfills, hfinds⟩ := h
  refine ⟨fs₁, hfrees, ?_⟩
  rw [bind_apply]
  rcases ha : a fs with ⟨e | x, fs'⟩
  · rw [ha] at hfills
    exact ⟨hfills, by simp⟩
  · rw [ha] at hfills hfinds
    exact ⟨hfills, fun _ _ => hfinds x rfl⟩

lemma copyLink_replaces (source dest : Path) (fs : FileSystem) :
    Replaces source dest (copyLink source dest) fs := by
  refine replaces_of_room fun fs₁ hclear => ?_
  rw [bind_apply, ask]
  cases hread : fs₁.readLink source with
  | error r => exact ⟨.inl rfl, by simp⟩
  | ok target =>
    dsimp only
    rw [change, makeLink]
    rcases hf : fs₁.find .entry dest with r | (⟨l, e⟩ | l)
    · exact ⟨.inl rfl, by simp⟩
    · exact ⟨.inl rfl, by simp⟩
    · exact ⟨.inr ⟨_, l, hf, hclear.no_link, agrees_set fs₁ l _⟩,
        fun _ _ => ⟨finds_of_readLink hread, _, _, hf⟩⟩

lemma copyMode_fills (h : fs.Fills fs' dest)
    (hset : ∀ mode fs'', fs'.setMode dest mode = .ok fs'' → fs.Fills fs'' dest) :
    fs.Fills (copyMode source dest fs').2 dest := by
  rw [copyMode, bind_apply, ask]
  cases modeAt fs' source with
  | error r => exact h
  | ok mode =>
    dsimp only
    rw [change]
    cases hm : fs'.setMode dest mode with
    | error r => exact h
    | ok fs'' => exact hset mode fs'' hm

lemma copyFile_replaces (source dest : Path) (fs : FileSystem) :
    Replaces source dest (copyFile source dest) fs := by
  refine replaces_of_room fun fs₁ hclear => ?_
  rw [bind_apply, ask]
  rcases isPipe fs₁ dest with r | (_ | _)
  · exact ⟨.inl rfl, by simp⟩
  · dsimp only
    rw [if_neg Bool.false_ne_true, bind_apply, ask]
    cases hread : fs₁.readFile source with
    | error r => exact ⟨.inl rfl, by simp⟩
    | ok bytes =>
      dsimp only
      rw [bind_apply, change]
      cases hw : fs₁.writeFile dest bytes with
      | error r => exact ⟨.inl rfl, by simp⟩
      | ok fs₂ =>
        obtain ⟨hdest, hfills, hset⟩ := fills_writeFile hclear.no_link hclear.no_file hw
        exact ⟨copyMode_fills hfills hset, fun _ _ => ⟨finds_of_readFile hread, hdest⟩⟩
  · exact ⟨.inl rfl, fun _ hx => by cases hx⟩

end

end FileAction

namespace Walk

open Attempt FileAction

section

variable {fs fs' : FileSystem} {p : Pair} {e : Entry}

lemma openDirectory_of_unchanged {dest : Path}
    (h : Fails (makeDirectories dest fs) ∧ (makeDirectories dest fs).2 = fs) (source : Path) :
    ∃ e, openDirectory source dest fs = (.error e, fs) := by
  obtain ⟨⟨e, he⟩, hfs⟩ := h
  exact ⟨e, bind_of_error (Prod.ext he hfs) _⟩

lemma names_of_leaf {out : Path} {names : List Name} (hne : e ≠ .directory)
    (h : copyEntry p e fs = (.ok (out, names), fs')) : names = [] := by
  cases e with
  | directory => exact absurd rfl hne
  | pipe => cases h
  | link | file =>
    obtain ⟨_, _, -, h⟩ := bind_eq_ok h
    cases h
    rfl

end

lemma copyEntry_replaces {e : Entry} (he : e ≠ .directory) (p : Pair) (fs : FileSystem) :
    Replaces p.source p.dest (copyEntry p e) fs := by
  cases e with
  | directory => exact absurd rfl he
  | link target => exact (copyLink_replaces p.source p.dest fs).pure (p.dest, [])
  | file bytes mode => exact (copyFile_replaces p.source p.dest fs).pure (p.dest, [])
  | pipe => exact ⟨fs, .inl rfl, .inl rfl, fun _ hx => by cases hx⟩

end Walk

end Scaffold
