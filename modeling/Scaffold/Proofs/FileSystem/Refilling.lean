import Scaffold.Proofs.FileSystem.Writing

namespace Scaffold

def Entry.outline : Entry → Entry
  | .file .. => .file ByteArray.empty 0
  | e => e

def Spot.outline : Spot → Spot
  | .there loc e => .there loc e.outline
  | .vacant loc => .vacant loc

namespace FileSystem

structure Refilled (fs fs' : FileSystem) : Prop where
  workDir : fs'.workDir = fs.workDir
  outline : ∀ l, (fs'.get? l).map Entry.outline = (fs.get? l).map Entry.outline

section

variable {fs fs' : FileSystem} {p : Path} {q : Purpose} {l loc : Location} {e e' : Entry}
  {bytes : ByteArray} {mode : Nat} {a rest : List String} {n : String}
  {jump jump' : Location → List String → Except Refusal Spot}

lemma Refilled.refl (fs : FileSystem) : fs.Refilled fs := ⟨rfl, fun _ => rfl⟩

lemma refilled_set (h : fs.get? l = some (.file bytes mode)) (bytes' : ByteArray) (mode' : Nat) :
    fs.Refilled (fs.set l (.file bytes' mode')) := by
  have hd : fs.get? l ≠ some .directory := by simp [h]
  have hc := canHold_of_file h
  refine ⟨(agrees_set fs l _).workDir, fun k => ?_⟩
  rw [get?_set fs l k _ hc hd]
  split_ifs with hk
  · rw [hk, h]
    rfl
  · rfl

lemma outline_eq (h : e'.outline = e.outline) :
    e' = e ∨ ∃ bytes mode bytes' mode', e = .file bytes mode ∧ e' = .file bytes' mode' := by
  cases e <;> cases e' <;> simp_all [Entry.outline]

lemma descend_of_not_directory (he : e ≠ .directory) (n : String) (rest : List String) :
    fs.descend q jump loc e (n :: rest) = .error .notDirectory := by
  cases e with
  | directory => exact absurd rfl he
  | file | link | pipe => rfl

lemma Refilled.descend (h : fs.Refilled fs')
    (hj : ∀ loc a, (jump' loc a).map Spot.outline = (jump loc a).map Spot.outline)
    (he : e'.outline = e.outline) :
    (fs'.descend q jump' loc e' a).map Spot.outline =
      (fs.descend q jump loc e a).map Spot.outline := by
  induction a generalizing loc e e' with
  | nil =>
    rw [FileSystem.descend, FileSystem.descend]
    exact congrArg (fun x => Except.ok (Spot.there loc x)) he
  | cons n rest ih =>
    rcases outline_eq he with rfl | ⟨b, m, b', m', rfl, rfl⟩
    swap
    · rfl
    by_cases hdir : e' = .directory
    swap
    · rw [descend_of_not_directory hdir, descend_of_not_directory hdir]
    subst hdir
    rw [FileSystem.descend, FileSystem.descend]
    by_cases hdot : n = "" ∨ n = "."
    · simp only [hdot, if_true]
      exact ih rfl
    by_cases hup : n = ".."
    · simp only [hup, if_true]
      exact ih rfl
    by_cases hbar : q = .writing ∧ rest = [""]
    · simp only [hdot, hup, hbar, and_self, if_true, if_false]
    by_cases hlong : nameLimit < n.utf8ByteSize
    · simp only [hdot, hup, hbar, hlong, if_true, if_false]
    simp only [hdot, hup, hbar, hlong, if_false]
    -- A name: what stands there is the same but for what a file holds.
    have hn := h.outline (n :: loc)
    cases hget : fs.get? (n :: loc) with
    | none =>
      rw [hget, Option.map_none, Option.map_eq_none_iff] at hn
      rw [hn]
    | some c =>
      rw [hget] at hn
      obtain ⟨c', hget', hc⟩ := Option.map_eq_some_iff.mp hn
      rw [hget']
      rcases outline_eq hc with rfl | ⟨b, m, b', m', rfl, rfl⟩
      · cases c' with
        | link target =>
          dsimp only
          split_ifs
          · rfl
          · exact hj _ _
        | directory | file | pipe => exact ih rfl
      · exact ih rfl

lemma Refilled.walk (h : fs.Refilled fs') (links : Nat) :
    (fs'.walk q links loc a).map Spot.outline = (fs.walk q links loc a).map Spot.outline := by
  induction links generalizing a loc with
  | zero => exact h.descend (fun _ _ => rfl) rfl
  | succ links ih => exact h.descend (fun _ _ => ih) rfl

lemma Refilled.find (h : fs.Refilled fs') :
    (fs'.find q p).map Spot.outline = (fs.find q p).map Spot.outline := by
  have hstart : fs'.startOf p = fs.startOf p := by simp only [startOf, h.workDir]
  have hdir : fs'.get? (fs.startOf p) = some .directory ↔
      fs.get? (fs.startOf p) = some .directory := by
    have ho := h.outline (fs.startOf p)
    rcases hget : fs.get? (fs.startOf p) with _ | (_ | _ | _ | _) <;>
      rcases hget' : fs'.get? (fs.startOf p) with _ | (_ | _ | _ | _) <;>
      simp_all [Entry.outline]
  rw [FileSystem.find, FileSystem.find, hstart]
  simp only [hdir]
  split_ifs
  · rfl
  · rfl
  · exact h.walk linkLimit
  · rfl

lemma Refilled.exists? (h : fs.Refilled fs') : fs'.exists? p = fs.exists? p := by
  have hfind := h.find (q := .target) (p := p)
  rw [FileSystem.exists?, FileSystem.exists?, targetAt, targetAt]
  rcases hf : fs.find .target p with r | (⟨l, e⟩ | l) <;>
    rcases hf' : fs'.find .target p with r' | (⟨l', e'⟩ | l') <;>
    rw [hf, hf'] at hfind <;>
    first | rfl | (cases hfind <;> rfl)

lemma refilled_of_writeFile {fs₁ fs₂ : FileSystem} {bytes' : ByteArray}
    (h : fs.writeFile p bytes = .ok fs₁) (h' : fs₁.writeFile p bytes' = .ok fs₂) :
    fs₁.Refilled fs₂ := by
  obtain ⟨s, hs⟩ : ∃ s, fs.find .writing p = .ok s := by
    cases hf : fs.find .writing p with
    | ok s => exact ⟨s, rfl⟩
    | error r =>
      rw [FileSystem.writeFile, hf] at h
      cases h
  obtain ⟨l, rfl⟩ := find_eq_spotAt hs
  -- Either a file has been written at `l`, or nothing has been written and nothing will be.
  have hslot (mode : Nat) (hc : fs.canHold l = true) (hspare : fs.Spare l)
      (hset : fs₁ = fs.set l (.file bytes mode)) : fs₁.Refilled fs₂ := by
    subst hset
    obtain ⟨hr, hget⟩ := hspare.set hc bytes mode
    rw [FileSystem.writeFile, hr.find (.inl rfl) hs, spotAt_of_some hget] at h'
    cases h'
    exact refilled_set hget bytes' mode
  rw [FileSystem.writeFile, hs] at h
  cases hget : fs.get? l with
  | none =>
    rw [spotAt_of_none hget] at h hs
    by_cases hc : fs.canHold l = true
    · exact hslot newFileMode hc (by simp [Spare, hget]) (Except.ok.inj h).symm
    · have hno (bytes : ByteArray) : fs.set l (.file bytes newFileMode) = fs := by
        rw [FileSystem.set, dif_neg fun hh => hc hh.1]
      obtain rfl : fs = fs₁ := (hno bytes).symm.trans (Except.ok.inj h)
      rw [FileSystem.writeFile, hs] at h'
      exact (hno bytes').symm.trans (Except.ok.inj h') ▸ .refl fs
  | some e =>
    rw [spotAt_of_some hget] at h hs
    cases e with
    | directory => cases h
    | file b mode =>
      exact hslot mode (canHold_of_file hget)
        (fun e he => ⟨b, mode, Option.some.inj (he.symm.trans hget)⟩) (Except.ok.inj h).symm
    | link | pipe =>
      cases h
      rw [FileSystem.writeFile, hs] at h'
      cases h'
      exact .refl fs

end

end FileSystem

end Scaffold
