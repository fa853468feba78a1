import Scaffold.Proofs.Store.History
import Scaffold.Proofs.Walk.Additions

/-! A create makes room under its name and then copies, and whatever becomes of it, nothing changes
elsewhere. -/

namespace Scaffold

namespace FileSystem

open Attempt FileAction

section

variable {fs : FileSystem} {p : Path} {n : Name} {T l : Location}

lemma child_there {e : Entry} (hup : n.1 ≠ "..")
    (h : fs.find .entry (p.child n) = .ok (.there l e)) :
    ∃ T, l = n.1 :: T ∧ fs.Leads p T ∧ fs.get? (n.1 :: T) = some e := by
  obtain ⟨T, hT⟩ := leads_of_child h
  obtain ⟨hn, hlen⟩ := hT.fits hup h
  obtain ⟨rfl, hget⟩ := spotAt_eq_there (Except.ok.inj ((hT.denotes hn hlen).entry.symm.trans h))
  exact ⟨T, rfl, hT, hget⟩

lemma Leads.not_exists (hT : fs.Leads p T) (hup : n.1 ≠ "..") (hnone : fs.get? (n.1 :: T) = none) :
    fs.exists? (p.child n) ≠ .ok true := by
  intro h
  obtain ⟨e, he, -⟩ := ask_eq_true_iff.mp h
  obtain ⟨l, d, hl⟩ := entry_of_targetAt he
  cases hT.child_vacant hup hnone hl

lemma Leads.vacant_or_unchanged (hT : fs.Leads p T) (hup : n.1 ≠ "..")
    (hfree : fs.exists? (p.child n) ≠ .ok true) :
    fs.find .entry (p.child n) = .ok (.vacant (n.1 :: T)) ∨
      Fails (makeDirectories (p.child n) fs) ∧ (makeDirectories (p.child n) fs).2 = fs := by
  by_cases hfit : isEntryName n.1 = true ∧ (p.child n).byteLength ≤ pathLimit
  swap
  · obtain ⟨r, hr, hrefused⟩ := hT.refused hup hfit
    exact .inr (unchanged_of_refused (hrefused .entry) hr)
  have hden := hT.denotes hfit.1 hfit.2
  cases hget : fs.get? (n.1 :: T) with
  | none => exact .inl (hden.find_vacant hget .entry)
  | some e =>
    refine .inr (unchanged_of_there (l := n.1 :: T) (e := e) ?_ fun hdir => ?_)
    · rw [hden.entry, spotAt_of_some hget]
    · obtain ⟨d, hd, -⟩ := ask_eq_true_iff.mp hdir
      exact hfree (ask_eq_true_iff.mpr ⟨d, hd, rfl⟩)

end

end FileSystem

namespace Walk

open Attempt FileAction FileSystem

variable {fs : FileSystem} {q : Path} {n : Name} {T : Location}

lemma copyTree_agrees (source : Path) (hT : fs.Leads q T) (hup : n.1 ≠ "..")
    (hfree : fs.exists? (q.child n) ≠ .ok true) :
    fs.AgreesOutside (copyTree source (q.child n) fs).2 (n.1 :: T) := by
  cases hentry : fs.entryAt source with
  | error r =>
    obtain ⟨e, he⟩ := copyTree_of_lost hentry (q.child n)
    rw [he]
    exact .refl fs _
  | ok d =>
    by_cases hdir : d = .directory
    swap
    · obtain ⟨fs₁, hfrees, hfills, -⟩ := copyEntry_replaces hdir ⟨source, q.child n⟩ fs
      rw [(copyTree_of_leaf hentry hdir (q.child n)).1]
      exact (hT.agrees_frees hup hfrees).trans (hT.agrees_fills hfrees.extends hup hfills)
    subst hdir
    rcases hT.vacant_or_unchanged hup hfree with hvacant | ⟨hfails, hsame⟩
    · have hawaits : Awaits fs ⟨source, q.child n⟩ (n.1 :: T) :=
        ⟨⟨q, n, T, rfl, rfl, hup, hT⟩, get?_of_vacant hvacant⟩
      exact hawaits.copyTree.2
    · obtain ⟨S, hS⟩ := entryAt_eq_ok hentry
      rw [(fails_copyTree hS hfails).2, hsame]
      exact .refl fs _

end Walk

namespace Store

open Attempt FileAction FileSystem Walk

def clear (home : Home) (name : String) (overwrite : Bool) : FileAction Path := do
  let p ← settle (path home name)
  if ← ask FileSystem.exists? p then
    if overwrite then removeTree p else fail (.templateExists name)
  makeDirectories home.templates
  pure p

section

variable {home : Home} {fs fs₁ : FileSystem} {T : Location} {name : String} {n : Name}
  {p : Path} {overwrite : Bool} {r : Except Failure Unit}

lemma up_of_templateName? (h : Home.templateName? name = some n) : n.1 ≠ ".." := by
  rw [templateName?_eq_some h]
  rintro rfl
  cases h

lemma create_eq (home : Home) (name : String) (source : Path) (overwrite : Bool) :
    create home name source overwrite =
      clear home name overwrite >>= fun p => copyTree source p >>= fun _ => pure p := by
  simp only [create, clear, Template.create, bind_assoc]
  congr 1
  funext p
  congr 1
  funext found
  cases found <;> cases overwrite <;>
    simp only [Bool.false_eq_true, if_false, if_true, bind_assoc, pure_bind]

lemma removeTree_cases (hup : n.1 ≠ "..") (h : removeTree (p.child n) fs = (r, fs₁)) :
    (∃ e, r = .error e) ∧ fs₁ = fs ∨
    ∃ T, fs.Leads p T ∧ fs.get? (n.1 :: T) = some .directory ∧
      ((∃ e, r = .error e) ∧ fs₁ = fs.eraseBelow (n.1 :: T) ∨
        r = .ok () ∧ fs₁ = fs.eraseTree (n.1 :: T)) := by
  rw [Store.removeTree, bind_apply, FileAction.ask] at h
  cases hentry : fs.entryAt (p.child n) with
  | error r =>
    rw [hentry] at h
    cases h
    exact .inl ⟨⟨_, rfl⟩, rfl⟩
  | ok e =>
    rw [hentry] at h
    cases e with
    | file | link | pipe =>
      cases h
      exact .inl ⟨⟨_, rfl⟩, rfl⟩
    | directory =>
      right
      obtain ⟨l, hl⟩ := entryAt_eq_ok hentry
      obtain ⟨T, rfl, hT, hget⟩ := child_there hup hl
      have hempty : fs.emptyDirectory (p.child n) = .ok (fs.eraseBelow (n.1 :: T)) := by
        rw [emptyDirectory, hl]
      dsimp only at h
      rw [bind_of_ok (change_of_ok hempty), change, FileSystem.removeTree] at h
      -- The path may have led through the directory, which is empty now.
      refine ⟨T, hT, hget, ?_⟩
      rcases hf : (fs.eraseBelow (n.1 :: T)).find .entry (p.child n) with c | (⟨k, d⟩ | k)
      · rw [hf] at h
        cases h
        exact .inl ⟨⟨_, rfl⟩, rfl⟩
      · cases hl.symm.trans (find_sees (eraseBelow_extends fs _) (.inl rfl) hf)
        rw [hf] at h
        cases h
        exact .inr ⟨rfl, eraseTree_eraseBelow fs (List.cons_ne_nil _ _)⟩
      · rw [hf] at h
        cases h
        exact .inl ⟨⟨_, rfl⟩, rfl⟩

inductive Emptied (home : Home) (n : Name) (fs : FileSystem) : FileSystem → Prop
  | free (h : fs.exists? (home.templates.child n) = .ok false) : Emptied home n fs fs
  | removed {T : Location} (hT : fs.Leads home.templates T) :
      Emptied home n fs (fs.eraseTree (n.1 :: T))

lemma clear_cases (hn : Home.templateName? name = some n) :
    (∃ e, clear home name overwrite fs = (.error e, fs)) ∨
    (∃ T e, fs.Leads home.templates T ∧
      clear home name overwrite fs = (.error e, fs.eraseBelow (n.1 :: T))) ∨
    ∃ fs₁, Emptied home n fs fs₁ ∧ clear home name overwrite fs =
      (makeDirectories home.templates >>= fun _ => pure (home.templates.child n)) fs₁ := by
  rw [clear, path_of_templateName? hn, settle_ok, bind_of_ok (pure_apply _ fs), bind_apply,
    FileAction.ask]
  rcases hexists : fs.exists? (home.templates.child n) with c | (_ | _)
  · exact .inl ⟨_, rfl⟩
  · exact .inr (.inr ⟨fs, .free hexists, rfl⟩)
  · cases overwrite with
    | false => exact .inl ⟨_, rfl⟩
    | true =>
      dsimp only
      rw [if_pos rfl, if_pos rfl, bind_apply]
      rcases hremove : Store.removeTree (home.templates.child n) fs with ⟨r, fs₁⟩
      rcases removeTree_cases (up_of_templateName? hn) hremove with
        ⟨⟨e, rfl⟩, rfl⟩ | ⟨T, hT, -, ⟨⟨e, rfl⟩, rfl⟩ | ⟨rfl, rfl⟩⟩
      · exact .inl ⟨e, rfl⟩
      · exact .inr (.inl ⟨T, e, hT, rfl⟩)
      · exact .inr (.inr ⟨_, .removed hT, rfl⟩)

lemma Emptied.not_exists (h : Emptied home n fs fs₁) (hup : n.1 ≠ "..")
    (hT : fs₁.Leads home.templates T) : fs₁.exists? (home.templates.child n) ≠ .ok true := by
  cases h with
  | free h => simp [h]
  | @removed T' hT' =>
    cases hT'.symm.trans (hT.extends (eraseTree_extends fs (List.cons_ne_nil _ _)))
    refine hT.not_exists hup ?_
    rw [get?_eraseTree _ _ _ (List.cons_ne_nil _ _), if_pos List.suffix_rfl]

lemma Emptied.agrees (h : Emptied home n fs fs₁) (hT : fs.Leads home.templates T) :
    fs.AgreesOutside fs₁ (n.1 :: T) := by
  cases h with
  | free => exact .refl fs _
  | removed hT' =>
    cases hT'.symm.trans hT
    exact agrees_eraseTree fs (List.cons_ne_nil _ _)

lemma create_agrees (source : Path) (overwrite : Bool) (hn : Home.templateName? name = some n)
    (hT : fs.Leads home.templates T) (hway : (fs.eraseTree (n.1 :: T)).Leads home.templates T) :
    fs.AgreesOutside (create home name source overwrite fs).2 (n.1 :: T) := by
  rw [create_eq]
  rcases clear_cases hn with ⟨e, he⟩ | ⟨T', e, hT', he⟩ | ⟨fs₁, hemptied, hclear⟩
  · rw [bind_of_error he]
    exact .refl fs _
  · cases hT'.symm.trans hT
    rw [bind_of_error he]
    exact agrees_eraseBelow fs _
  · have hT₁ : fs₁.Leads home.templates T := by
      cases hemptied with
      | free => exact hT
      | removed hT' =>
        cases hT'.symm.trans hT
        exact hway
    have hup := up_of_templateName? hn
    rw [bind_of_ok (makeDirectories_of_leads hT₁)] at hclear
    rw [bind_of_ok hclear, bind_apply]
    have hcopy := (hemptied.agrees hT).trans
      (copyTree_agrees source hT₁ hup (hemptied.not_exists hup hT₁))
    rcases hrun : copyTree source (home.templates.child n) fs₁ with ⟨e | u, fs'⟩ <;>
      rwa [hrun] at hcopy

def Stored (home : Home) (fs : FileSystem) (name : String) (M : Location) : Prop :=
  ∃ n, Home.templateName? name = some n ∧ fs.Leads (home.templates.child n) M

lemma Stored.exists? {M : Location} (h : Stored home fs name M)
    (hn : Home.templateName? name = some n) :
    fs.exists? (home.templates.child n) = .ok true := by
  obtain ⟨m, hm, hM⟩ := h
  obtain rfl := Option.some.inj (hm.symm.trans hn)
  exact hM.exists?

lemma Stored.agrees {M : Location} {m : String} {fs' : FileSystem}
    (h : Stored home (fs.eraseTree (n.1 :: T)) m M) (ha : fs.AgreesOutside fs' (n.1 :: T))
    (hM : ¬ M <:+ n.1 :: T) :
    Stored home fs' m M ∧ ∀ l, M <:+ l → fs'.get? l = fs.get? l := by
  obtain ⟨k, hk, hleads⟩ := h
  have hget (l : Location) := get?_eraseTree fs (n.1 :: T) l (List.cons_ne_nil _ _)
  refine ⟨⟨k, hk, hleads.extends ⟨?_, fun {l e} hl => ?_⟩⟩, fun l hl => ha.get? l fun hs => ?_⟩
  · rw [ha.workDir, (agrees_eraseTree fs (List.cons_ne_nil n.1 T)).workDir]
  · rw [hget] at hl
    split_ifs at hl with hs
    rw [ha.get? l hs, hl]
  · rcases List.suffix_or_suffix_of_suffix hl hs with hs | hs
    · exact hM hs
    · have hgone := hleads.get?
      rw [hget, if_pos hs] at hgone
      cases hgone

lemma create_refused {M : Location} (source : Path) (hn : Home.templateName? name = some n)
    (h : Stored home fs name M)
    (hkeep : overwrite = false ∨ fs.isLink (home.templates.child n) = .ok true) :
    ∃ e, create home name source overwrite fs = (.error e, fs) := by
  have hask := ask_of_ok (h.exists? hn)
  have hclear : ∃ e, clear home name overwrite fs = (.error e, fs) := by
    rw [clear, path_of_templateName? hn, settle_ok, bind_of_ok (pure_apply _ fs), bind_of_ok hask,
      if_pos rfl]
    cases overwrite with
    | false => exact ⟨_, rfl⟩
    | true =>
      have hlink := hkeep.resolve_left (by simp)
      obtain ⟨e, he, hlink⟩ := ask_eq_true_iff.mp hlink
      cases e with
      | link target =>
        rw [if_pos rfl, bind_apply, Store.removeTree, bind_of_ok (ask_of_ok he)]
        exact ⟨_, rfl⟩
      | directory | file | pipe => cases hlink
  obtain ⟨e, he⟩ := hclear
  rw [create_eq]
  exact ⟨e, bind_of_error he _⟩

end

theorem create_failed_keeps {home : Home} {name : String} {source : Path} {overwrite : Bool}
    {fs fs' : FileSystem} {e : Failure}
    (h : create home name source overwrite fs = (.error e, fs')) :
    (Home.templateName? name = none → fs' = fs) ∧
    ∀ n, Home.templateName? name = some n →
      (∀ M, Stored home fs name M →
        overwrite = false ∨ fs.isLink (home.templates.child n) = .ok true → fs' = fs) ∧
      ∀ T, fs.Leads home.templates T →
        ∀ m M, Stored home (fs.eraseTree (n.1 :: T)) m M → ¬ M <:+ n.1 :: T →
          Stored home fs' m M ∧ ∀ l, M <:+ l → fs'.get? l = fs.get? l := by
  constructor
  · intro hinvalid
    have hpath : path home name = .error (.obstacle (.badTemplateName name)) := by
      rw [path, Home.templateDirectory, hinvalid]
    rw [create, hpath, settle_error] at h
    cases h
    rfl
  · intro n hn
    refine ⟨fun M hM hkeep => ?_, fun T hT m M hstored hapart => ?_⟩
    · obtain ⟨e', he⟩ := create_refused source hn hM hkeep
      cases he.symm.trans h
      rfl
    · obtain ⟨k, -, hM⟩ := id hstored
      obtain ⟨T', hway⟩ := leads_of_child hM
      cases hT.symm.trans (hway.extends (eraseTree_extends fs (List.cons_ne_nil _ _)))
      have hagrees := create_agrees source overwrite hn hT hway
      rw [h] at hagrees
      exact hstored.agrees hagrees hapart

def shelvedFiles : FileSystem :=
  ((((((FileSystem.empty.set ["home"] .directory).set ["templates", "home"] .directory).set
    ["n", "templates", "home"] .directory).set ["m", "templates", "home"] .directory).set
      ["f", "n", "templates", "home"] (.file "old".toUTF8 0o644)).set
        ["f", "m", "templates", "home"] (.file "other".toUTF8 0o644))

lemma shelvedFiles_create : ∃ e, create newHome "n" (Path.ofString "missing") true shelvedFiles =
    (.error e, shelvedFiles.eraseTree ["n", "templates", "home"]) := by
  have hremoved : (Store.removeTree (newHome.templates.child ⟨"n", rfl⟩) shelvedFiles).1 =
      .ok () := by
    decide +kernel
  have hT : shelvedFiles.Leads newHome.templates ["templates", "home"] := by decide +kernel
  have hlost : (shelvedFiles.eraseTree ["n", "templates", "home"]).entryAt
      (Path.ofString "missing") = .error .noEntry := by
    decide +kernel
  rcases hremove : Store.removeTree (newHome.templates.child ⟨"n", rfl⟩) shelvedFiles with ⟨r, fs₁⟩
  rw [hremove] at hremoved
  obtain rfl := hremoved
  rcases removeTree_cases (by decide) hremove with
    ⟨⟨e, he⟩, -⟩ | ⟨T, hT', -, ⟨⟨e, he⟩, -⟩ | ⟨-, rfl⟩⟩
  · cases he
  · cases he
  cases hT'.symm.trans hT
  rw [create_over newHome_nameable (by decide +kernel) hremove, stock,
    bind_of_ok (makeDirectories_of_leads (l := ["templates", "home"]) (by decide +kernel))]
  obtain ⟨e, he⟩ := copyTree_of_lost hlost (newHome.templates.child ⟨"n", rfl⟩)
  exact ⟨e, bind_of_error he _⟩

theorem create_failed_keeps_other : ∃ e fs',
    create newHome "n" (Path.ofString "missing") true shelvedFiles = (.error e, fs') ∧
    Stored newHome fs' "m" ["m", "templates", "home"] ∧
    fs'.get? ["f", "m", "templates", "home"] = some (.file "other".toUTF8 0o644) := by
  obtain ⟨e, he⟩ := shelvedFiles_create
  obtain ⟨-, hname⟩ := create_failed_keeps he
  obtain ⟨-, hothers⟩ := hname ⟨"n", rfl⟩ rfl
  obtain ⟨hstored, hget⟩ := hothers ["templates", "home"] (by decide +kernel) "m"
    ["m", "templates", "home"] ⟨⟨"m", rfl⟩, rfl, by decide +kernel⟩ (by decide)
  refine ⟨e, _, he, hstored, (hget ["f", "m", "templates", "home"] ⟨["f"], rfl⟩).trans ?_⟩
  decide +kernel

theorem create_failed_loses : ∃ e fs',
    create newHome "n" (Path.ofString "missing") true shelvedFiles = (.error e, fs') ∧
    Stored newHome shelvedFiles "n" ["n", "templates", "home"] ∧
    shelvedFiles.get? ["f", "n", "templates", "home"] = some (.file "old".toUTF8 0o644) ∧
    fs'.get? ["n", "templates", "home"] = none := by
  obtain ⟨e, he⟩ := shelvedFiles_create
  exact ⟨e, _, he, ⟨⟨"n", rfl⟩, rfl, by decide +kernel⟩, by decide +kernel, by decide +kernel⟩

end Store

end Scaffold
