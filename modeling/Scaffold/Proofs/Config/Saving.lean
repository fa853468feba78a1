import Scaffold.Proofs.Config.Encoding
import Scaffold.Proofs.FileSystem.Writing
import Scaffold.Proofs.Walk.Directories

namespace Scaffold.Config

open Attempt FileAction FileSystem

def CanSave (fs : FileSystem) (p : Path) : Prop :=
  ∃ base l, makeDirectories p.parent fs = (.ok (), base) ∧ base.Slot p l

section

variable {fs fs' : FileSystem} {p : Path} {l : Location} {c : Config} {bytes : ByteArray}
  {mode : Nat}

lemma load_of_file (hf : fs.find .target p = .ok (.there l (.file bytes mode)))
    (hc : decode bytes = .ok c) : Config.load p fs = (.ok c, fs) := by
  have hat : fs.targetAt p = .ok (.file bytes mode) := by rw [targetAt, hf]
  have hthere : fs.exists? p = .ok true := by rw [exists?, hat]; rfl
  have hread : fs.readFile p = .ok bytes := by rw [FileSystem.readFile, hat]
  rw [Config.load, bind_of_ok (ask_of_ok hthere), if_pos rfl, bind_of_ok (ask_of_ok hread), hc]
  rfl

lemma load_of_absent (h : fs.exists? p = .ok false) : Config.load p fs = (.ok empty, fs) := by
  rw [Config.load, bind_of_ok (ask_of_ok h), if_neg Bool.false_ne_true]
  rfl

lemma load_snd (p : Path) (fs : FileSystem) : (Config.load p fs).2 = fs := by
  rw [Config.load, bind_apply, FileAction.ask]
  rcases fs.exists? p with r | (_ | _)
  · rfl
  · rfl
  · dsimp only
    rw [if_pos rfl, bind_apply, FileAction.ask]
    rcases fs.readFile p with r | bytes
    · rfl
    · dsimp only
      rcases decode bytes with e | c
      · cases e <;> rfl
      · rfl

lemma CanSave.save (h : CanSave fs p) (c : Config) :
    ∃ fs', c.save p fs = (.ok (), fs') ∧ CanSave fs' p ∧ fs'.isFile p = .ok true ∧
      Config.load p fs' = (.ok c, fs') := by
  obtain ⟨base, l, hmake, hslot⟩ := h
  obtain ⟨fs', mode, hwrite, hre, hfind⟩ := hslot.writeFile c.encode
  obtain ⟨loc, hleads⟩ := makeDirectories_leads hmake
  refine ⟨fs', ?_, ⟨fs', l, makeDirectories_of_leads (hre.leads hleads), hre.slot hslot⟩, ?_,
    load_of_file hfind (decode_encode c)⟩
  · rw [Config.save, bind_of_ok hmake]
    exact change_of_ok hwrite
  · rw [isFile, targetAt, hfind]
    rfl

theorem canSave_iff :
    CanSave fs p ↔ ∃ c fs', Config.save c p fs = (.ok (), fs') ∧ fs'.isFile p = .ok true := by
  constructor
  · intro h
    obtain ⟨fs', hsave, -, hfile, -⟩ := h.save .empty
    exact ⟨.empty, fs', hsave, hfile⟩
  · rintro ⟨c, fs', hsave, hfile⟩
    obtain ⟨_, base, hmake, hchange⟩ := bind_eq_ok hsave
    obtain ⟨l, hslot⟩ := slot_of_writeFile (change_eq_ok hchange) hfile
    exact ⟨base, l, hmake, hslot⟩

end

theorem load_save {fs : FileSystem} {p : Path} (h : CanSave fs p) (c : Config) :
    ∃ fs', c.save p fs = (.ok (), fs') ∧ Config.load p fs' = (.ok c, fs') := by
  obtain ⟨fs', hsave, -, -, hload⟩ := h.save c
  exact ⟨fs', hsave, hload⟩

def newFile : Path := ⟨.relative, [⟨"config.json", rfl⟩, ⟨"h", rfl⟩]⟩

lemma canSave_newFile : CanSave .empty newFile := by
  have hmake : makeDirectories newFile.parent .empty =
      (.ok (), FileSystem.empty.set ["h"] .directory) := makeDirectories_of_none rfl
  have hnone : (FileSystem.empty.set ["h"] .directory).get? ["config.json", "h"] = none := rfl
  exact ⟨_, ["config.json", "h"], hmake, rfl, rfl, by simp [Spare, hnone]⟩

def quotedConfig : Config :=
  ⟨.ofList [("", "\"\\\n"), ("\x7f", "\x00")], .ofList [("/u", ⟨"", ∅⟩)]⟩

theorem load_save_newFile : CanSave .empty newFile ∧
    ∃ fs', quotedConfig.save newFile .empty = (.ok (), fs') ∧
      Config.load newFile fs' = (.ok quotedConfig, fs') :=
  ⟨canSave_newFile, load_save canSave_newFile quotedConfig⟩

end Scaffold.Config
