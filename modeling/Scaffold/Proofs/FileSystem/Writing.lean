import Scaffold.Proofs.FileSystem.Reaching
import Scaffold.Proofs.FileSystem.Trees

/-! Files that are written where a path leads. Whatever links the path goes through, it leads to the
file from then on, and every other path leads where it led. -/

namespace Scaffold

namespace FileSystem

def Spare (fs : FileSystem) (l : Location) : Prop :=
  ∀ e, fs.get? l = some e → ∃ bytes mode, e = .file bytes mode

structure Rewritten (fs fs' : FileSystem) : Prop where
  workDir : fs'.workDir = fs.workDir
  get? : ∀ l, fs'.get? l = fs.get? l ∨
    fs.Spare l ∧ ∃ bytes mode, fs'.get? l = some (.file bytes mode)

structure Slot (fs : FileSystem) (p : Path) (l : Location) : Prop where
  find : fs.find .writing p = .ok (fs.spotAt l)
  holds : fs.canHold l = true
  spare : fs.Spare l

section

variable {fs fs' : FileSystem} {p : Path} {q q' : Purpose} {l loc : Location} {bytes : ByteArray}
  {mode : Nat} {d d' e : Entry} {n : String} {a rest : List String} {s : Spot}
  {jump jump' : Location → List String → Except Refusal Spot}

lemma spotAt_of_some (h : fs.get? l = some e) : fs.spotAt l = .there l e := by
  rw [spotAt, h]

lemma spotAt_of_none (h : fs.get? l = none) : fs.spotAt l = .vacant l := by
  rw [spotAt, h]

lemma Rewritten.refl (fs : FileSystem) : fs.Rewritten fs := ⟨rfl, fun _ => .inl rfl⟩

lemma Rewritten.keeps (h : fs.Rewritten fs') (hl : fs.get? l = some e)
    (he : ∀ b m, e ≠ .file b m) : fs'.get? l = some e := by
  rcases h.get? l with hsame | ⟨hspare, -⟩
  · rw [hsame, hl]
  · obtain ⟨b, m, hb⟩ := hspare e hl
    exact absurd hb (he b m)

lemma not_barred_of_ok (h : turn loc n = none)
    (hd : fs.descend q jump loc .directory (n :: rest) = .ok s) :
    ¬(q = .writing ∧ rest = [""]) := by
  obtain ⟨hempty, hdot, hup⟩ := turn_eq_none_iff.mp h
  intro hw
  rw [descend, if_neg (not_or.mpr ⟨hempty, hdot⟩), if_neg hup, if_pos hw] at hd
  cases hd

lemma Rewritten.descend (h : fs.Rewritten fs') (hq : q' = q ∨ q = .writing ∧ q' = .target)
    (hj : ∀ loc a, fs.get? loc = some .directory → jump loc a = .ok (fs.spotAt l) →
      jump' loc a = .ok (fs'.spotAt l))
    (hloc : fs.get? loc = some d) (hloc' : fs'.get? loc = some d')
    (hd : fs.descend q jump loc d a = .ok (fs.spotAt l)) :
    fs'.descend q' jump' loc d' a = .ok (fs'.spotAt l) := by
  have hentry : q' = .entry ↔ q = .entry := by
    rcases hq with rfl | ⟨rfl, rfl⟩ <;> simp
  -- On the names that are left. The two file systems differ only where the lookup ends in both.
  induction a generalizing loc d d' with
  | nil =>
    have hs : fs.spotAt l = .there loc d := by cases d <;> exact (Except.ok.inj hd).symm
    rw [← (spotAt_eq_there hs).1, spotAt_of_some hloc']
    cases d' <;> rfl
  | cons n rest ih =>
    cases d with
    | file | link | pipe => cases hd
    | directory =>
      obtain rfl : d' = .directory :=
        Option.some.inj (hloc'.symm.trans (h.keeps hloc (by simp)))
      cases hturn : turn loc n with
      | some loc' =>
        have hdir := get?_turn hloc hturn
        rw [descend_turn hturn] at hd ⊢
        exact ih hdir (h.keeps hdir (by simp)) hd
      | none =>
        have hbar : ¬(q' = .writing ∧ rest = [""]) := by
          rintro ⟨rfl, hr⟩
          rcases hq with rfl | ⟨-, hq⟩
          · exact not_barred_of_ok hturn hd ⟨rfl, hr⟩
          · cases hq
        obtain ⟨hsize, hd⟩ := descend_name_eq_ok hturn hd
        rw [descend_name hturn hbar hsize, enter]
        rw [enter] at hd
        cases hn : fs.get? (n :: loc) with
        | none =>
          rw [hn] at hd
          by_cases hr : rest = []
          · simp only [hr, if_true, Except.ok.injEq] at hd ⊢
            obtain ⟨rfl, -⟩ := spotAt_eq_vacant hd.symm
            rcases h.get? (n :: loc) with hsame | ⟨-, b, m, hb⟩
            · rw [hsame, hn, spotAt_of_none (hsame.trans hn)]
            · rw [hb, spotAt_of_some hb]
              rfl
          · simp [hr] at hd
        | some c =>
          rw [hn] at hd
          cases c with
          | link target =>
            have hn' := h.keeps hn (by simp)
            rw [hn']
            by_cases hr : rest = [] ∧ q = .entry
            · simp only [hr, and_self, if_true, Except.ok.injEq] at hd
              obtain ⟨rfl, -⟩ := spotAt_eq_there hd.symm
              simp only [hr, hentry.2 hr.2, and_self, if_true, spotAt_of_some hn']
            · simp only [hr, if_false, hentry] at hd ⊢
              exact hj _ _ (get?_linkStart hloc target) hd
          | file b m =>
            rcases h.get? (n :: loc) with hsame | ⟨-, b', m', hb⟩
            · rw [hsame, hn]
              exact ih hn (hsame.trans hn) hd
            · rw [hb]
              exact ih hn hb hd
          | directory =>
            have hn' := h.keeps hn (by simp)
            rw [hn']
            exact ih hn hn' hd
          | pipe =>
            have hn' := h.keeps hn (by simp)
            rw [hn']
            exact ih hn hn' hd

lemma Rewritten.walk (h : fs.Rewritten fs') (hq : q' = q ∨ q = .writing ∧ q' = .target)
    {links : Nat} (hloc : fs.get? loc = some .directory)
    (hw : fs.walk q links loc a = .ok (fs.spotAt l)) :
    fs'.walk q' links loc a = .ok (fs'.spotAt l) := by
  have hkeep (loc : Location) (hloc : fs.get? loc = some .directory) :
      fs'.get? loc = some .directory := h.keeps hloc (by simp)
  induction links generalizing a loc with
  | zero => exact h.descend hq (fun _ _ _ hj => by cases hj) hloc (hkeep loc hloc) hw
  | succ links ih => exact h.descend hq (fun _ _ hd hj => ih hd hj) hloc (hkeep loc hloc) hw

lemma Rewritten.find (h : fs.Rewritten fs') (hq : q' = q ∨ q = .writing ∧ q' = .target)
    (hf : fs.find q p = .ok (fs.spotAt l)) : fs'.find q' p = .ok (fs'.spotAt l) := by
  obtain ⟨hnul, hlen, hstart, hw⟩ := find_eq_walk hf
  have hsame : fs'.startOf p = fs.startOf p := by simp only [startOf, h.workDir]
  rw [find_of_walk hnul hlen (hsame ▸ h.keeps hstart (by simp)), hsame]
  exact h.walk hq hstart hw

lemma Rewritten.leads (h : fs.Rewritten fs') (hp : fs.Leads p loc) : fs'.Leads p loc := by
  have hf : fs.find .target p = .ok (fs.spotAt loc) := by rw [spotAt_of_some hp.get?]; exact hp
  rw [Leads, h.find (.inl rfl) hf, spotAt_of_some (h.keeps hp.get? (by simp))]

lemma Rewritten.canHold (h : fs.Rewritten fs') (hl : fs.canHold l = true) :
    fs'.canHold l = true := by
  cases l with
  | nil => cases hl
  | cons n loc =>
    obtain ⟨hn, hd⟩ := (canHold_iff fs n loc).mp hl
    exact (canHold_iff fs' n loc).mpr ⟨hn, h.keeps hd (by simp)⟩

lemma Rewritten.spare (h : fs.Rewritten fs') (hl : fs.Spare l) : fs'.Spare l := by
  rcases h.get? l with hsame | ⟨-, b, m, hb⟩
  · rw [Spare, hsame]
    exact hl
  · intro e he
    exact ⟨b, m, Option.some.inj (he.symm.trans hb)⟩

lemma Rewritten.slot (h : fs.Rewritten fs') (hp : fs.Slot p l) : fs'.Slot p l :=
  ⟨h.find (.inl rfl) hp.find, h.canHold hp.holds, h.spare hp.spare⟩

lemma Spare.set (hs : fs.Spare l) (hc : fs.canHold l = true) (bytes : ByteArray) (mode : Nat) :
    fs.Rewritten (fs.set l (.file bytes mode)) ∧
      (fs.set l (.file bytes mode)).get? l = some (.file bytes mode) := by
  have hd : fs.get? l ≠ some .directory := fun hd => by
    obtain ⟨b, m, hb⟩ := hs _ hd
    cases hb
  refine ⟨⟨by rw [FileSystem.set, dif_pos ⟨hc, hd⟩], fun loc => ?_⟩, ?_⟩
  · rw [get?_set fs l loc _ hc hd]
    by_cases hl : loc = l
    · exact .inr ⟨hl ▸ hs, bytes, mode, if_pos hl⟩
    · exact .inl (if_neg hl)
  · rw [get?_set fs l l _ hc hd, if_pos rfl]

lemma Slot.writeFile (h : fs.Slot p l) (bytes : ByteArray) :
    ∃ fs' mode, fs.writeFile p bytes = .ok fs' ∧ fs.Rewritten fs' ∧
      fs'.find .target p = .ok (.there l (.file bytes mode)) := by
  have hstand (mode : Nat) : fs.Rewritten (fs.set l (.file bytes mode)) ∧
      (fs.set l (.file bytes mode)).find .target p = .ok (.there l (.file bytes mode)) := by
    obtain ⟨hr, hget⟩ := h.spare.set h.holds bytes mode
    exact ⟨hr, spotAt_of_some hget ▸ hr.find (.inr ⟨rfl, rfl⟩) h.find⟩
  rw [FileSystem.writeFile, h.find]
  cases he : fs.get? l with
  | none =>
    rw [spotAt_of_none he]
    exact ⟨_, _, rfl, hstand newFileMode⟩
  | some e =>
    obtain ⟨b, mode, rfl⟩ := h.spare e he
    rw [spotAt_of_some he]
    exact ⟨_, _, rfl, hstand mode⟩

lemma canHold_of_file (h : fs.get? l = some (.file bytes mode)) : fs.canHold l = true := by
  cases l with
  | nil =>
    rw [fs.get?_root] at h
    cases h
  | cons n loc =>
    have hmem : n :: loc ∈ fs.entries := by
      rw [Std.ExtTreeMap.mem_iff_isSome_getElem?]
      exact Option.isSome_of_eq_some h
    exact (canHold_iff fs n loc).mpr (fs.closed n loc hmem)

lemma file_of_isFile (hf : fs.find .target p = .ok (fs.spotAt l)) (h : fs.isFile p = .ok true) :
    ∃ bytes mode, fs.get? l = some (.file bytes mode) := by
  rw [isFile, targetAt, hf] at h
  cases he : fs.get? l with
  | none =>
    rw [spotAt_of_none he] at h
    cases h
  | some e =>
    rw [spotAt_of_some he] at h
    cases e with
    | file b m => exact ⟨b, m, rfl⟩
    | directory | link | pipe => cases h

lemma slot_of_writeFile (hw : fs.writeFile p bytes = .ok fs') (hf : fs'.isFile p = .ok true) :
    ∃ l, fs.Slot p l := by
  rw [FileSystem.writeFile] at hw
  rcases hfind : fs.find .writing p with r | s
  · rw [hfind] at hw
    cases hw
  obtain ⟨l, rfl⟩ := find_eq_spotAt hfind
  -- Where nothing is written there must have been a file before.
  have hold (hsame : fs = fs') : ∃ bytes mode, fs.get? l = some (.file bytes mode) := by
    subst hsame
    exact file_of_isFile ((Rewritten.refl fs).find (.inr ⟨rfl, rfl⟩) hfind) hf
  rw [hfind] at hw
  cases he : fs.get? l with
  | none =>
    refine ⟨l, hfind, ?_, by simp [Spare, he]⟩
    by_contra hc
    rw [spotAt_of_none he] at hw
    have hset : fs = fs' := by
      rw [← Except.ok.inj hw, FileSystem.set, dif_neg fun h => hc h.1]
    obtain ⟨b, m, hb⟩ := hold hset
    rw [he] at hb
    cases hb
  | some e =>
    rw [spotAt_of_some he] at hw
    cases e with
    | directory => cases hw
    | file b m =>
      exact ⟨l, hfind, canHold_of_file he, fun e h => ⟨b, m, Option.some.inj (h.symm.trans he)⟩⟩
    | link | pipe =>
      obtain ⟨b, m, hb⟩ := hold (Except.ok.inj hw)
      rw [he] at hb
      cases hb

end

end FileSystem

end Scaffold
