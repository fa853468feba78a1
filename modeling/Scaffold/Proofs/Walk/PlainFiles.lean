import Scaffold.Proofs.Expr.Verbatim
import Scaffold.Proofs.Walk.Clearing
import Scaffold.Proofs.Walk.Making
import Scaffold.Proofs.Walk.Opening

namespace Scaffold

namespace FileSystem

section

variable {fs fs' : FileSystem} {p source : Path} {l : Location} {e : Entry} {bytes : ByteArray}

lemma readFile_extends (h : fs.Extends fs') (hr : fs.readFile p = .ok bytes) :
    fs'.readFile p = .ok bytes := by
  rw [readFile] at hr
  cases ht : fs.targetAt p with
  | error r =>
    rw [ht] at hr
    cases hr
  | ok e =>
    obtain ⟨l, hl⟩ := targetAt_eq_ok ht
    have ht' : fs'.targetAt p = .ok e := by rw [targetAt, h.find hl]
    rwa [readFile, ht', ← ht]

lemma readFile_of_entry {mode : Nat} (h : fs.entryAt p = .ok (.file bytes mode)) :
    fs.readFile p = .ok bytes := by
  obtain ⟨l, hl⟩ := entryAt_eq_ok h
  rw [readFile, targetAt, find_sees (.refl fs) (.inr ⟨rfl, by simp⟩) hl]

lemma set_set (fs : FileSystem) (l : Location) {e e' : Entry} (hl : fs.get? l ≠ some .directory)
    (he : e ≠ .directory) (he' : e' ≠ .directory) : (fs.set l e).set l e' = fs.set l e' := by
  by_cases hc : fs.canHold l = true
  · have hget := get?_set_self hc hl (e := e)
    have hc' : (fs.set l e).canHold l = true := by
      cases l with
      | nil => cases hc
      | cons n loc =>
        obtain ⟨hn, hd⟩ := (canHold_iff fs n loc).mp hc
        refine (canHold_iff _ n loc).mpr ⟨hn, ?_⟩
        rw [(agrees_set fs (n :: loc) e).get? loc (not_suffix_parent n loc), hd]
    refine eq_of_leaf (get?_set_self hc' (by simpa [hget] using he)) (get?_set_self hc hl) he' ?_
    exact (agrees_set _ l e').symm.trans ((agrees_set fs l e).symm.trans (agrees_set fs l e'))
  · have hset (d : Entry) : fs.set l d = fs := by rw [FileSystem.set, dif_neg fun h => hc h.1]
    rw [hset e, hset e']

lemma writeFile_refused {r : Refusal} (h : fs.writeFile p bytes = .error r) (b : ByteArray) :
    fs.writeFile p b = .error r := by
  rw [writeFile] at h ⊢
  rcases hf : fs.find .writing p with r' | (⟨l, e⟩ | l)
  · rwa [hf] at h
  · rw [hf] at h
    cases e with
    | directory => exact h
    | file | link | pipe => cases h
  · rw [hf] at h
    cases h

lemma writeFile_again (hfile : fs.isFile p ≠ .ok true) (hread : fs.readFile source = .ok bytes)
    (hw : fs.writeFile p ByteArray.empty = .ok fs') :
    fs'.readFile source = .ok bytes ∧ ∀ b, fs'.writeFile p b = fs.writeFile p b := by
  have hwhole := hw
  rw [writeFile] at hw
  rcases hf : fs.find .writing p with r | (⟨l, e⟩ | l)
  · rw [hf] at hw
    cases hw
  · rw [hf] at hw
    cases e with
    | directory => cases hw
    | file b m =>
      obtain ⟨k, hk⟩ := find_eq_spotAt hf
      have ht := (Rewritten.refl fs).find (.inr ⟨rfl, rfl⟩) (hf.trans (congrArg _ hk))
      refine absurd (isFile_eq_true_iff.mpr ⟨b, m, ?_⟩) hfile
      rw [targetAt, ht, ← hk]
    | link | pipe =>
      obtain rfl := Except.ok.inj hw
      exact ⟨hread, fun _ => rfl⟩
  · rw [hf] at hw
    obtain rfl := Except.ok.inj hw
    have hnone := get?_of_vacant hf
    by_cases hc : fs.canHold l = true
    · have hspare : fs.Spare l := fun e he => by simp [hnone] at he
      obtain ⟨hgrow, hget⟩ := hspare.set hc ByteArray.empty newFileMode
      refine ⟨readFile_extends (extends_set hnone _) hread, fun b => ?_⟩
      have hfind := hgrow.find (.inl rfl) (hf.trans (congrArg _ (spotAt_of_none hnone).symm))
      rw [writeFile, hfind, spotAt_of_some hget, writeFile, hf]
      exact congrArg _ (set_set fs l (by simp [hnone]) (by simp) (by simp))
    · have hset : fs.set l (.file ByteArray.empty newFileMode) = fs := by
        rw [FileSystem.set, dif_neg fun h => hc h.1]
      rw [hset]
      exact ⟨hread, fun _ => rfl⟩

end

end FileSystem

namespace FileAction

open Attempt FileSystem

section

variable {fs fs' : FileSystem} {source dest : Path} {text : List Char} {mode : Nat}

lemma expandInto_unmarked (h : Expr.Unmarked text) (ctx : Context)
    (hfile : fs.isFile dest ≠ .ok true)
    (hread : ∀ b, fs.readFile source = .ok b → b = (String.ofList text).toUTF8) :
    expandInto source dest ctx fs =
      (do
        let bytes ← ask FileSystem.readFile source
        change (·.writeFile · bytes) dest : FileAction Unit) fs := by
  rw [expandInto, bind_apply, bind_apply, FileAction.ask]
  cases hb : fs.readFile source with
  | error r => rfl
  | ok b =>
    obtain rfl := hread b hb
    dsimp only
    cases hw : fs.writeFile dest ByteArray.empty with
    | error r =>
      have hw' := writeFile_refused hw (String.ofList text).toUTF8
      simp only [bind_apply, change, hw, hw']
    | ok fs₁ =>
      obtain ⟨hread₁, hagain⟩ := writeFile_again hfile hb hw
      rw [bind_of_ok (change_of_ok hw), bind_of_ok (ask_of_ok hread₁),
        Text.Utf8.decode_toUTF8]
      cases hb' : fs.writeFile dest (String.ofList text).toUTF8 with
      | error r =>
        have hempty := writeFile_refused hb' ByteArray.empty
        rw [hw] at hempty
        cases hempty
      | ok fs₂ =>
        simp only [writeRendering, change, String.toList_ofList, Expr.expand_of_unmarked h, hagain,
          hb']

lemma make_unmarked (h : Expr.Unmarked text) (ctx : Context)
    (hsource : fs.entryAt source = .ok (.file (String.ofList text).toUTF8 mode))
    (hpipe : fs.entryAt dest ≠ .ok .pipe) :
    (do
      makeRoom dest
      expandInto source dest ctx
      copyMode source dest : FileAction Unit) fs = copyFile source dest fs := by
  rw [copyFile, bind_apply, bind_apply]
  rcases hroom : makeRoom dest fs with ⟨e | u, fs₁⟩
  · rfl
  have hclear := makeRoom_clears hroom
  have hread (b : ByteArray) (hb : fs₁.readFile source = .ok b) :
      b = (String.ofList text).toUTF8 :=
    Except.ok.inj
      ((readFile_extends hclear.frees.extends hb).symm.trans (readFile_of_entry hsource))
  have hnopipe : isPipe fs₁ dest = .ok false := by
    have hne := hclear.no_pipe hpipe
    rw [isPipe]
    split
    · exact absurd ‹_› hne
    · rfl
  dsimp only
  rw [bind_apply, expandInto_unmarked h ctx hclear.no_file hread, bind_of_ok (ask_of_ok hnopipe),
    if_neg Bool.false_ne_true, ← bind_apply]
  exact congrFun (bind_assoc _ _ _) fs₁

end

end FileAction

namespace Walk

open Attempt FileAction FileSystem

theorem unmarked_stands (fs : FileSystem) (ctx : Context) (text : List Char)
    (h : Expr.Unmarked text) :
    Expr.expand fs ctx text = ⟨text, .ok ()⟩ ∧
    (∀ file name p, Expr.render fs ctx file = ⟨name, .ok p⟩ →
      Expr.readText fs (Expr.locate ctx name) = .ok text →
      Expr.render fs ctx (.call "include" file .nil []) = ⟨text, .ok true⟩ ∧
      ∀ define undefine, (∀ d ∈ define.toList, ∃ q, (Expr.render fs ctx d.2).result = .ok q) →
        Expr.render fs ctx (.call "make" file define undefine) = ⟨text, .ok true⟩) ∧
    ∀ source dest bytes mode, bytes = (String.ofList text).toUTF8 →
      fs.entryAt source = .ok (.file bytes mode) →
      (fs.entryAt dest ≠ .ok .pipe →
        handle ctx source .make dest (.file bytes mode) fs =
          handle ctx source .copy dest (.file bytes mode) fs) ∧
      ∀ l, fs.Place dest l → fs.Shows l source (.file bytes mode) →
        fs.get? l ≠ some .directory → fs.get? l ≠ some .pipe →
        handle ctx source .make dest (.file bytes mode) fs =
          (.ok (dest, []), fs.replace l (.file bytes mode)) := by
  refine ⟨Expr.expand_of_unmarked h fs ctx, fun file name p hname hread =>
    ⟨Expr.render_include hname hread, fun define undefine hdefine =>
      Expr.render_make_unmarked hname hread h hdefine undefine⟩, ?_⟩
  rintro source dest _ mode rfl hsource
  have hmake (hpipe : fs.entryAt dest ≠ .ok .pipe) :
      handle ctx source .make dest (.file (String.ofList text).toUTF8 mode) fs =
        handle ctx source .copy dest (.file (String.ofList text).toUTF8 mode) fs := by
    have hsplit : handle ctx source .make dest (.file (String.ofList text).toUTF8 mode) =
        (makeRoom dest >>= fun _ => expandInto source dest ctx >>= fun _ =>
          copyMode source dest) >>= fun _ => pure (dest, []) := by
      simp only [handle, if_true, bind_assoc]
    rw [hsplit, handle, if_neg (by simp), bind_apply, make_unmarked h ctx hsource hpipe,
      ← bind_apply]
  refine ⟨hmake, fun l hplace hshows hdir hpipe => ?_⟩
  have hnopipe : fs.entryAt dest ≠ .ok .pipe := by
    rw [entryAt, hplace.find_entry, spotAt]
    cases hl : fs.get? l with
    | none => simp
    | some e =>
      rintro he
      cases he
      exact hpipe hl
  rw [hmake hnopipe, handle_of_leaf (by simp) (.inl (by simp))]
  exact copyEntry_of_leaf hplace hshows (by simp) (by simp) hdir hpipe

def dollarFiles : FileSystem :=
  FileSystem.empty.set ["f"] (.file "a$$b$\x7b".toUTF8 0o600)

theorem unmarked_stands_dollars :
    Expr.render dollarFiles ⟨∅, .here⟩ (.call "make" (.lit "f") (.cons "n" (.lit "c") .nil) ["m"]) =
      ⟨"a$$b$\x7b".toList, .ok true⟩ ∧
    (handle ⟨∅, .here⟩ ⟨.relative, [⟨"f", rfl⟩]⟩ .make ⟨.relative, [⟨"o", rfl⟩]⟩
      (.file "a$$b$\x7b".toUTF8 0o600) dollarFiles).2.get? ["o"] =
        some (.file "a$$b$\x7b".toUTF8 0o600) := by
  have hplain : Expr.Unmarked "a$$b$\x7b".toList := Expr.unmarked_of_tails (by decide)
  obtain ⟨-, hread, hmake⟩ := unmarked_stands dollarFiles ⟨∅, .here⟩ _ hplain
  constructor
  · refine (hread (.lit "f") ['f'] true rfl (by decide +kernel)).2 _ _ fun d hd => ?_
    obtain rfl := List.mem_singleton.mp hd
    exact ⟨true, rfl⟩
  · obtain ⟨hcopy, -⟩ := hmake ⟨.relative, [⟨"f", rfl⟩]⟩ ⟨.relative, [⟨"o", rfl⟩]⟩ _ 0o600 rfl
      (by decide +kernel)
    rw [String.ofList_toList] at hcopy
    rw [hcopy (by decide +kernel)]
    decide +kernel

end Walk

end Scaffold
