import Scaffold.Proofs.Bindings
import Scaffold.Proofs.Walk.Materialized
import Scaffold.Proofs.Walk.Merging

namespace Scaffold

namespace FileSystem

def under (loc : Location) (names : List Name) : Location :=
  names.map Subtype.val ++ loc

def Linkless (fs : FileSystem) (loc : Location) : Prop :=
  ∀ l target, loc <:+ l → fs.get? l ≠ some (.link target)

/-- Entries have come to the directory at `D`, those of kind `e` to the locations `l` with
`R l e`. -/
structure Merged (fs : FileSystem) (D : Location) (R : Location → Entry → Prop)
    (fs' : FileSystem) : Prop where
  workDir : fs'.workDir = fs.workDir
  kept : ∀ l, (∀ e, ¬ R l e) → fs'.get? l = fs.get? l
  directory : ∀ l, fs.get? l = some .directory → fs'.get? l = some .directory
  file : ∀ l bytes mode, fs.get? l = some (.file bytes mode) → (∀ e, R l e → e = .directory) →
    fs'.get? l = some (.file bytes mode)
  linkless : fs'.Linkless D

section

variable {fs fs₁ fs₂ : FileSystem} {D T l : Location} {R : Location → Entry → Prop} {e : Entry}

lemma suffix_under (loc : Location) (names : List Name) : loc <:+ under loc names :=
  List.suffix_append _ loc

lemma under_injective {names names' : List Name} (h : under D names = under D names') :
    names = names' :=
  List.map_injective_iff.mpr Subtype.val_injective (List.append_cancel_right h)

lemma merged_refl (R : Location → Entry → Prop) (h : fs.Linkless D) : fs.Merged D R fs :=
  ⟨rfl, fun _ _ => rfl, fun _ => id, fun _ _ _ hl _ => hl, h⟩

lemma Merged.ways (h : fs.Merged D R fs₁) (hR : ∀ l e, R l e → D <:+ l) (hD : fs.Linkless D) :
    fs.Ways fs₁ := by
  refine ⟨h.workDir, h.directory, fun l target hl => ?_⟩
  rw [h.kept l fun e he => hD l target (hR l e he) hl, hl]

lemma Merged.alters (h : fs.Merged D R fs₁) (ha : fs₁.Alters fs₂ l) (hR : R l e)
    (he : e ≠ .directory ∨ fs₁.get? l = none) : fs.Merged D R fs₂ where
  workDir := ha.workDir.trans h.workDir
  kept k hk := by
    have hkl : k ≠ l := by
      rintro rfl
      exact hk e hR
    rw [ha.get? k hkl, h.kept k hk]
  directory k hk := ha.ways.directory k (h.directory k hk)
  file k bytes mode hk honly := by
    have hfile := h.file k bytes mode hk honly
    have hkl : k ≠ l := by
      rintro rfl
      rcases he with he | he
      · exact he (honly e hR)
      · cases hfile.symm.trans he
    rw [ha.get? k hkl, hfile]
  linkless k target hk := by
    by_cases hkl : k = l
    · subst hkl
      exact (ha.link_ne target).2
    · rw [ha.get? k hkl]
      exact h.linkless k target hk

lemma Merged.entryAt {p : Path} {n : Name} {d : Location} (h : fs.Merged D R fs₁)
    (hR : ∀ l e, R l e → D <:+ l) (hD : fs.Linkless D) (hp : fs.Leads p d) (hup : n.1 ≠ "..")
    (hd : ¬ D <:+ n.1 :: d) (he : fs₁.entryAt (p.child n) = .ok e) :
    fs.entryAt (p.child n) = .ok e ∧ fs.get? (n.1 :: d) = some e ∧
      (e = .directory → fs.Leads (p.child n) (n.1 :: d)) := by
  obtain ⟨l, hl⟩ := entryAt_eq_ok he
  have hp₁ := hp.ways (h.ways hR hD)
  obtain ⟨hn, hlen⟩ := hp₁.fits hup hl
  have hden := hp.denotes hn hlen
  have hspot := Except.ok.inj ((hp₁.denotes hn hlen).entry.symm.trans hl)
  obtain ⟨rfl, hget⟩ := spotAt_eq_there hspot
  have hsame : fs.get? (n.1 :: d) = some e := by
    rw [← h.kept _ fun e he => hd (hR _ e he), hget]
  refine ⟨hden.entryAt hsame, hsame, ?_⟩
  rintro rfl
  exact hden.leads hsame

end

end FileSystem

namespace Walk

open Attempt FileAction FileSystem

section

variable (m : Manifest) (ctx : Context) (root dest : Path) (fs : FileSystem)

/-- An entry of the template that is not left out, by its names below the root, where it goes, by
the names below the destination, and what is done with it. What is below a directory that is copied
goes along with it. -/
inductive Placed : List Name → List Name → Action → Prop
  | root : Placed [] [] .auto
  | entry {above outs : List Name} {n k : Name} {action action' : Action} {s : FileSystem}
      (h : Placed above outs action) (hopen : action ≠ .copy)
      (hcomes : Comes (materializeVisit m ctx root) [⟨root, dest⟩] fs
        ⟨sourceAt root (n :: above), sourceAt dest (n :: outs)⟩ s)
      (hlisted : ¬ (m.lookup (Path.text ⟨.relative, n :: above⟩) = none ∧
        Path.text ⟨.relative, n :: above⟩ = Manifest.fileName))
      (heff : effective s ctx (m.lookup (Path.text ⟨.relative, n :: above⟩))
        (sourceAt dest (n :: outs)) = .ok (some (action', sourceAt dest (k :: outs)))) :
      Placed (n :: above) (k :: outs) action'
  | verbatim {above outs : List Name} {n : Name} (h : Placed above outs .copy) :
      Placed (n :: above) (n :: outs) .copy

def Receives (outs : List Name) (e : Entry) : Prop :=
  ∃ names action, names ≠ [] ∧ Placed m ctx root dest fs names outs action ∧
    fs.entryAt (sourceAt root names) = .ok e

def Taken (D l : Location) (e : Entry) : Prop :=
  ∃ outs, l = under D outs ∧ Receives m ctx root dest fs outs e

variable (T D : Location)

/-- Two directories that are not inside each other and have no links. -/
structure Mergeable : Prop where
  root : fs.Leads root T
  dest : fs.Leads dest D
  apart : ¬ T <:+ D ∧ ¬ D <:+ T
  template : fs.Linkless T
  linkless : fs.Linkless D

structure Bound (s : FileSystem) (n : Name) (above : List Name) (k : Name) (outs : List Name) :
    Prop where
  source : fs.Leads (sourceAt root above) (under T above)
  dest : s.Leads (sourceAt dest outs) (under D outs)
  name : n.1 ≠ ".."
  out : k.1 ≠ ".."

def Pending (s : FileSystem) (w : Pair) : Prop :=
  ∃ n above outs action, w = ⟨sourceAt root (n :: above), sourceAt dest (n :: outs)⟩ ∧
    Placed m ctx root dest fs above outs action ∧ action ≠ .copy ∧
    Bound root dest fs T D s n above n outs

def Along (s : FileSystem) (w : Pair) : Prop :=
  ∃ n above k outs, w = ⟨sourceAt root (n :: above), sourceAt dest (k :: outs)⟩ ∧
    Placed m ctx root dest fs (n :: above) (k :: outs) .copy ∧
    Bound root dest fs T D s n above k outs

end

structure Proceeds (fs : FileSystem) (D : Location) (R : Location → Entry → Prop)
    (next : FileSystem → Pair → Prop) (source : Path) (s : FileSystem)
    (r : Except Failure (Path × List Name) × FileSystem) : Prop where
  merged : fs.Merged D R r.2
  ways : s.Ways r.2
  next : ∀ out names s', r = (.ok (out, names), s') → ∀ n ∈ names,
    next s' ⟨source.child n, out.child n⟩

section

variable {m : Manifest} {ctx : Context} {root dest : Path} {fs s s' : FileSystem} {T D : Location}
  {R : Location → Entry → Prop} {next next' : FileSystem → Pair → Prop} {visit : Visit}
  {source : Path}
  {n k : Name} {above outs : List Name} {action : Action} {e : Entry}

lemma proceeds_of_state {r : Except Failure (Path × List Name) × FileSystem}
    (h : fs.Merged D R s) (hs : r.2 = s) (hr : ∀ out names s', r = (.ok (out, names), s') →
      names = []) : Proceeds fs D R next source s r where
  merged := hs ▸ h
  ways := hs ▸ .refl s
  next out names s' hok n hn := by simp [hr out names s' hok] at hn

lemma Proceeds.mapFailure {a : FileAction (Path × List Name)}
    (h : Proceeds fs D R next source s (a s)) (f : Failure → Failure) :
    Proceeds fs D R next source s (mapFailure f a s) where
  merged := by
    rw [mapFailure_snd]
    exact h.merged
  ways := by
    rw [mapFailure_snd]
    exact h.ways
  next out names s' hok := h.next out names s' (mapFailure_eq_ok hok)

lemma run_merged (next : FileSystem → Pair → Prop) (ho : Orderly visit) {start work : List Pair}
    {s₀ : FileSystem}
    (hmono : ∀ s s' w, s.Ways s' → next s w → next s' w)
    (hvisit : ∀ p s, Comes visit start s₀ p s → fs.Merged D R s → next s p →
      Proceeds fs D R next p.source s (visit p s))
    (hsofar : ∀ q t, Comes visit work s q t → Comes visit start s₀ q t)
    (hs : fs.Merged D R s) (hwork : ∀ w ∈ work, next s w) :
    fs.Merged D R (run visit work s).2 ∧ s.Ways (run visit work s).2 := by
  induction work, s using run.induct visit with
  | case1 s =>
    rw [run_nil]
    exact ⟨hs, .refl s⟩
  | case2 s p rest f s' hv =>
    have hp := hvisit p s (hsofar p s (.here p rest s)) hs (hwork p List.mem_cons_self)
    rw [hv] at hp
    rw [run_of_error hv]
    exact ⟨hp.merged, hp.ways⟩
  | case3 s p rest out names s' hv hlen ih =>
    have hp := hvisit p s (hsofar p s (.here p rest s)) hs (hwork p List.mem_cons_self)
    rw [hv] at hp
    rw [run_of_ok hv (ho.short hv)]
    have hrest := ih (fun q t hq => hsofar q t (.next hv hq)) hp.merged fun w hw => by
      rcases List.mem_append.mp hw with hw | hw
      · obtain ⟨n, hn, rfl⟩ := List.mem_map.mp hw
        exact hp.next out names s' rfl n hn
      · exact hmono s s' w hp.ways (hwork w (List.mem_cons_of_mem p hw))
    exact ⟨hrest.1, hp.ways.trans hrest.2⟩
  | case4 s p rest out names s' hv hlen ih => exact absurd (Path.length_lt (ho.short hv)) hlen

lemma suffix_of_taken (l : Location) (e : Entry) (h : Taken m ctx root dest fs D l e) :
    D <:+ l := by
  obtain ⟨outs, rfl, -⟩ := h
  exact suffix_under D outs

lemma effective_place {rule : Option FileRule} (out : Path) {q : Path} (hup : n.1 ≠ "..")
    (h : effective s ctx rule (out.child n) = .ok (some (action, q))) :
    ∃ k : Name, k.1 ≠ ".." ∧ q = out.child k := by
  rcases rule with _ | ⟨a, text⟩
  · cases h
    exact ⟨n, hup, rfl⟩
  by_cases ha : a = .ignore
  · subst ha
    cases h
  by_cases ht : text = ""
  · subst ht
    refine ⟨n, hup, ?_⟩
    cases a with
    | ignore => exact absurd rfl ha
    | auto | copy | make =>
      cases h
      rfl
  rw [effective_of_text s ctx _ ha ht] at h
  cases hx : Expr.expandString s ctx text with
  | error f =>
    rw [hx] at h
    cases h
  | ok name =>
    rw [hx] at h
    dsimp only at h
    split_ifs at h with hempty hdots
    · cases h
    · cases hname : Name.ofString? name with
      | none =>
        rw [hname] at h
        cases h
      | some k =>
        rw [hname] at h
        cases h
        refine ⟨k, ?_, rfl⟩
        rw [Name.ofString?] at hname
        split_ifs at hname
        cases hname
        exact hdots

lemma Bound.ways (b : Bound root dest fs T D s n above k outs) (h : s.Ways s') :
    Bound root dest fs T D s' n above k outs :=
  { b with dest := b.dest.ways h }

lemma names_of_handle {source out q : Path} {names : List Name} (hdir : e ≠ .directory)
    (h : handle ctx source action q e s = (.ok (out, names), s')) : names = [] := by
  rcases handle_cases ctx source action q e with
    hcopy | ⟨rfl, rfl⟩ | ⟨rfl, bytes, mode, rfl⟩
  · rw [hcopy] at h
    exact names_of_leaf hdir h
  · exact absurd rfl hdir
  · obtain ⟨_, _, -, h⟩ := bind_eq_ok h
    obtain ⟨_, _, -, h⟩ := bind_eq_ok h
    obtain ⟨_, _, -, h⟩ := bind_eq_ok h
    cases h
    rfl

variable (hM : Mergeable root dest fs T D) (hs : fs.Merged D (Taken m ctx root dest fs D) s)
  (b : Bound root dest fs T D s n above k outs)

include hM hs b

lemma Bound.entry (he : s.entryAt (sourceAt root (n :: above)) = .ok e) :
    fs.entryAt (sourceAt root (n :: above)) = .ok e ∧ (∀ target, e ≠ .link target) ∧
      (e = .directory → fs.Leads (sourceAt root (n :: above)) (under T (n :: above))) := by
  have hbelow : ¬ D <:+ n.1 :: under T above :=
    not_suffix_of_apart hM.apart.1 hM.apart.2 (n.1 :: above.map Subtype.val)
  obtain ⟨hentry, hget, hleads⟩ :=
    hs.entryAt suffix_of_taken hM.linkless b.source b.name hbelow he
  refine ⟨hentry, ?_, hleads⟩
  rintro target rfl
  exact hM.template _ target (suffix_under T (n :: above)) hget

lemma Bound.taken (hp : Placed m ctx root dest fs (n :: above) (k :: outs) action)
    (he : s.entryAt (sourceAt root (n :: above)) = .ok e) :
    Taken m ctx root dest fs D (under D (k :: outs)) e :=
  ⟨k :: outs, rfl, n :: above, action, by simp, hp, (b.entry hM hs he).1⟩

lemma Bound.leaf {a : Action} (hp : Placed m ctx root dest fs (n :: above) (k :: outs) action)
    (he : s.entryAt (sourceAt root (n :: above)) = .ok e) (hdir : e ≠ .directory) :
    Proceeds fs D (Taken m ctx root dest fs D) next
      (sourceAt root (n :: above)) s
      (handle ctx (sourceAt root (n :: above)) a (sourceAt dest (k :: outs)) e s) := by
  have htaken := b.taken hM hs hp he
  let I (s' : FileSystem) : Prop :=
    fs.Merged D (Taken m ctx root dest fs D) s' ∧ s.Ways s'
  have hne (s' : FileSystem) (hI : I s') (target : String) :
      s'.get? (under D (k :: outs)) ≠ some (.link target) :=
    hI.1.linkless _ target (suffix_under D (k :: outs))
  have hfaces (s' : FileSystem) (hI : I s') :
      s'.Faces (sourceAt dest (k :: outs)) (under D (k :: outs)) :=
    (b.dest.ways hI.2).faces b.out (hne s' hI)
  have halters (s' s'' : FileSystem) (hI : I s')
      (ha : s'.Alters s'' (under D (k :: outs))) : I s'' :=
    ⟨hI.1.alters ha htaken (.inl hdir), hI.2.trans ha.ways⟩
  have hkeeps : Maintains I
      (handle ctx (sourceAt root (n :: above)) a (sourceAt dest (k :: outs)) e) :=
    handle_maintains
      (fun s' s'' hI hr => halters s' s'' hI ((hfaces s' hI).removeFile (hne s' hI) hr))
      (fun s' s'' _ hI hw => halters s' s'' hI ((hfaces s' hI).writeFile (hne s' hI) hw))
      (fun s' s'' _ hI hm => halters s' s'' hI ((hfaces s' hI).setMode (hne s' hI) hm))
      ctx a hdir (b.entry hM hs he).2.1
  obtain ⟨hmerged, hways⟩ := hkeeps s ⟨hs, .refl s⟩
  refine ⟨hmerged, hways, fun out names s' hok n hn => ?_⟩
  rw [names_of_handle hdir hok] at hn
  cases hn

lemma Bound.openDirectory
    (hp : Placed m ctx root dest fs (n :: above) (k :: outs) action)
    (he : s.entryAt (sourceAt root (n :: above)) = .ok .directory)
    (hnext : ∀ s' (n' : Name), Bound root dest fs T D s' n' (n :: above) n' (k :: outs) →
      next s' ⟨sourceAt root (n' :: n :: above), sourceAt dest (n' :: k :: outs)⟩) :
    Proceeds fs D (Taken m ctx root dest fs D) next
      (sourceAt root (n :: above)) s
      (openDirectory (sourceAt root (n :: above)) (sourceAt dest (k :: outs)) s) := by
  have htaken := b.taken hM hs hp he
  have hsource := (b.entry hM hs he).2.2 rfl
  have hne (target : String) : s.get? (under D (k :: outs)) ≠ some (.link target) :=
    hs.linkless _ target (suffix_under D (k :: outs))
  -- The directory is there already, or it is made, or nothing is done at all.
  have hmake : Fails (makeDirectories (sourceAt dest (k :: outs)) s) ∧
        (makeDirectories (sourceAt dest (k :: outs)) s).2 = s ∨
      ∃ s', makeDirectories (sourceAt dest (k :: outs)) s = (.ok (), s') ∧
        fs.Merged D (Taken m ctx root dest fs D) s' ∧ s.Ways s' ∧
        s'.Leads (sourceAt dest (k :: outs)) (under D (k :: outs)) := by
    rcases b.dest.faces b.out hne with hfind | ⟨r, hr, hfind⟩
    swap
    · exact .inl (unchanged_of_refused (hfind .entry) hr)
    have hden : s.Denotes (sourceAt dest (k :: outs)) (under D (k :: outs)) :=
      ⟨hfind .entry, fun q _ => hfind q⟩
    cases hold : s.get? (under D (k :: outs)) with
    | none =>
      have hvacant := hden.find_vacant hold .entry
      have ha := alters_set (e := .directory) hne (by simp)
      have hset := get?_set_self (e := .directory) (canHold_of_vacant hvacant) (by simp [hold])
      exact .inr ⟨_, makeDirectories_of_none hvacant, hs.alters ha htaken (.inr hold), ha.ways,
        leads_of_vacant hvacant (extends_set hold _) hset⟩
    | some c =>
      by_cases hdir : c = .directory
      · subst hdir
        exact .inr ⟨s, makeDirectories_of_directory hden hold, hs, .refl s, hden.leads hold⟩
      · have hlink (target : String) (hc : c = .link target) : False :=
          hne target (hold.trans (hc ▸ rfl))
        have hthere := hden.find_there hold hlink .entry
        refine .inl (unchanged_of_there hthere ?_)
        rw [isDirectory, hden.ask_targetAt hne, hold]
        cases c <;> simp_all [Entry.isDirectory]
  rcases hmake with hstays | ⟨s', hmade, hmerged, hways, hleads⟩
  · obtain ⟨f, hf⟩ := openDirectory_of_unchanged hstays (sourceAt root (n :: above))
    rw [hf]
    exact proceeds_of_state hs rfl fun _ _ _ hok => by cases hok
  · rw [Walk.openDirectory, bind_of_ok hmade, bind_apply, FileAction.ask]
    cases hlist : s'.list (sourceAt root (n :: above)) with
    | error r => exact ⟨hmerged, hways, fun _ _ _ hok => by cases hok⟩
    | ok names =>
      refine ⟨hmerged, hways, fun out names' s'' hok n' hn => ?_⟩
      cases hok
      have hup := ((isEntryName_iff n').mp ((isEntryName_of_list hlist).2 n' hn)).1
      exact hnext s' n' ⟨hsource, hleads, hup, hup⟩

lemma Bound.along (hp : Placed m ctx root dest fs (n :: above) (k :: outs) .copy) :
    Proceeds fs D (Taken m ctx root dest fs D) (Along m ctx root dest fs T D)
      (sourceAt root (n :: above)) s
      (copyVisit ⟨sourceAt root (n :: above), sourceAt dest (k :: outs)⟩ s) := by
  cases hentry : s.entryAt (sourceAt root (n :: above)) with
  | error r =>
    obtain ⟨f, hf⟩ := copyVisit_of_refused
      (p := ⟨sourceAt root (n :: above), sourceAt dest (k :: outs)⟩) hentry
    rw [hf]
    exact proceeds_of_state hs rfl fun _ _ _ hok => by cases hok
  | ok e =>
    rw [copyVisit_eq (p := ⟨sourceAt root (n :: above), sourceAt dest (k :: outs)⟩) hentry]
    apply Proceeds.mapFailure
    by_cases hdir : e = .directory
    · subst hdir
      exact b.openDirectory hM hs hp hentry fun s' n' b' =>
        ⟨n', n :: above, n', k :: outs, rfl, .verbatim hp, b'⟩
    · have hleaf : handle ctx (sourceAt root (n :: above)) .copy (sourceAt dest (k :: outs)) e =
          copyEntry ⟨sourceAt root (n :: above), sourceAt dest (k :: outs)⟩ e :=
        handle_of_leaf hdir (.inl (by simp))
      rw [← hleaf]
      exact b.leaf hM hs hp hentry hdir

lemma Bound.copyTree (hp : Placed m ctx root dest fs (n :: above) (k :: outs) .copy) :
    fs.Merged D (Taken m ctx root dest fs D)
      (copyTree (sourceAt root (n :: above)) (sourceAt dest (k :: outs)) s).2 ∧
    s.Ways (copyTree (sourceAt root (n :: above)) (sourceAt dest (k :: outs)) s).2 := by
  refine run_merged (Along m ctx root dest fs T D) copyVisit_orderly ?_ ?_ (fun _ _ h => h) hs ?_
  · rintro s s' w hways ⟨n, above, k, outs, rfl, hp, b⟩
    exact ⟨n, above, k, outs, rfl, hp, b.ways hways⟩
  · rintro p s - hs ⟨n, above, k, outs, rfl, hp, b⟩
    exact b.along hM hs hp
  · rw [List.forall_mem_singleton]
    exact ⟨n, above, k, outs, rfl, hp, b⟩

lemma Bound.handle {a : Action}
    (hp : Placed m ctx root dest fs (n :: above) (k :: outs) a)
    (he : s.entryAt (sourceAt root (n :: above)) = .ok e) :
    Proceeds fs D (Taken m ctx root dest fs D) (Pending m ctx root dest fs T D)
      (sourceAt root (n :: above)) s
      (handle ctx (sourceAt root (n :: above)) a (sourceAt dest (k :: outs)) e s) := by
  by_cases hdir : e = .directory
  swap
  · exact b.leaf hM hs hp he hdir
  subst hdir
  by_cases hcopy : a = .copy
  · subst hcopy
    obtain ⟨hmerged, hways⟩ := b.copyTree hM hs hp
    have hstate : (handle ctx (sourceAt root (n :: above)) .copy (sourceAt dest (k :: outs))
        .directory s).2 = _ := handle_copy_state
    rw [← hstate] at hmerged hways
    refine ⟨hmerged, hways, fun out names s' hok n hn => ?_⟩
    rw [Walk.handle, if_pos rfl] at hok
    obtain ⟨_, _, -, hend⟩ := bind_eq_ok hok
    cases hend
    cases hn
  · rw [handle_of_descent hcopy]
    exact b.openDirectory hM hs hp he
      fun s' n' b' => ⟨n', n :: above, k :: outs, a, rfl, hp, hcopy, b'⟩

omit b in
lemma Bound.pending (b : Bound root dest fs T D s n above n outs)
    (hp : Placed m ctx root dest fs above outs action) (hopen : action ≠ .copy)
    (hcomes : Comes (materializeVisit m ctx root) [⟨root, dest⟩] fs
      ⟨sourceAt root (n :: above), sourceAt dest (n :: outs)⟩ s) :
    Proceeds fs D (Taken m ctx root dest fs D) (Pending m ctx root dest fs T D)
      (sourceAt root (n :: above)) s
      (materializeVisit m ctx root ⟨sourceAt root (n :: above), sourceAt dest (n :: outs)⟩ s) := by
  cases hentry : s.entryAt (sourceAt root (n :: above)) with
  | error r =>
    rw [materializeVisit, if_neg (sourceAt_ne_root root n above)]
    apply Proceeds.mapFailure
    rw [visitEntry, bind_apply, FileAction.ask, hentry]
    exact proceeds_of_state hs rfl fun _ _ _ hok => by cases hok
  | ok e =>
    rw [materializeVisit_eq m ctx _ hentry]
    apply Proceeds.mapFailure
    by_cases hm : m.lookup (Path.text ⟨.relative, n :: above⟩) = none ∧
        Path.text ⟨.relative, n :: above⟩ = Manifest.fileName
    · rw [resolveEntry, if_pos hm]
      exact proceeds_of_state hs rfl fun _ _ _ hok => by cases hok; rfl
    cases heff : effective s ctx (m.lookup (Path.text ⟨.relative, n :: above⟩))
        (sourceAt dest (n :: outs)) with
    | error f =>
      rw [resolveEntry, if_neg hm, bind_apply, look, heff]
      exact proceeds_of_state hs rfl fun _ _ _ hok => by cases hok
    | ok chosen =>
      rcases chosen with _ | ⟨a, q⟩
      · rw [resolveEntry_of_none heff]
        exact proceeds_of_state hs rfl fun _ _ _ hok => by cases hok; rfl
      · rw [resolveEntry_of_some hm heff]
        obtain ⟨k', hk', rfl⟩ := effective_place (sourceAt dest outs) b.name heff
        have hplaced := Placed.entry hp hopen hcomes hm heff
        have b' : Bound root dest fs T D s n above k' outs := { b with out := hk' }
        exact b'.handle hM hs hplaced hentry

omit hs b in
lemma Mergeable.merged :
    fs.Merged D (Taken m ctx root dest fs D) (materialize m ctx root dest fs).2 := by
  have hs := merged_refl (Taken m ctx root dest fs D) hM.linkless
  have hvisit := materializeVisit_root m ctx dest hM.root
  cases hlist : fs.list root with
  | error r =>
    have hopen : Walk.openDirectory root dest fs =
        (.error (.obstacle (.refused r root.text)), fs) := by
      rw [Walk.openDirectory, bind_of_ok (makeDirectories_of_leads hM.dest), bind_apply,
        FileAction.ask, hlist]
    rw [materialize, run_of_error (hvisit.trans (mapFailure_of_error hopen _))]
    exact hs
  | ok names =>
    have hopen : Walk.openDirectory root dest fs = (.ok (dest, names), fs) :=
      (bind_of_ok (makeDirectories_of_leads hM.dest) _).trans (bind_of_ok (ask_of_ok hlist) _)
    have hv := hvisit.trans (mapFailure_of_ok hopen _)
    have hlen : root.byteLength ≤ pathLimit := (find_eq_walk hM.root).2.1
    rw [materialize, run_of_ok hv hlen]
    refine (run_merged (Pending m ctx root dest fs T D) (materializeVisit_orderly m ctx root) ?_ ?_
      (fun q t hq => .next hv hq) hs fun w hw => ?_).1
    · rintro s s' w hways ⟨n, above, outs, action, rfl, hp, hopen, b⟩
      exact ⟨n, above, outs, action, rfl, hp, hopen, b.ways hways⟩
    · rintro p s hcomes hs ⟨n, above, outs, action, rfl, hp, hopen, b⟩
      exact b.pending hM hs hp hopen hcomes
    · rw [List.append_nil] at hw
      obtain ⟨n, hn, rfl⟩ := List.mem_map.mp hw
      have hup := ((isEntryName_iff n).mp ((isEntryName_of_list hlist).2 n hn)).1
      exact ⟨n, [], [], .auto, rfl, .root, by simp, hM.root, hM.dest, hup, hup⟩

end

/-- A directory that a template is made in keeps, whether that succeeds or not, all that no entry of
the template goes to the place of, all directories, and the files to the places of which nothing but
directories go. -/
theorem materialize_preserves (m : Manifest) (ctx : Context) (root dest : Path) (fs : FileSystem)
    (T D : Location) (h : Mergeable root dest fs T D) :
    (∀ l, (∀ outs e, l = under D outs → ¬ Receives m ctx root dest fs outs e) →
      (materialize m ctx root dest fs).2.get? l = fs.get? l) ∧
    (∀ l, fs.get? l = some .directory →
      (materialize m ctx root dest fs).2.get? l = some .directory) ∧
    ∀ l bytes mode, fs.get? l = some (.file bytes mode) →
      (∀ outs e, l = under D outs → Receives m ctx root dest fs outs e → e = .directory) →
      (materialize m ctx root dest fs).2.get? l = some (.file bytes mode) := by
  have hmerged : fs.Merged D (Taken m ctx root dest fs D) (materialize m ctx root dest fs).2 :=
    h.merged
  refine ⟨fun l hno => hmerged.kept l ?_, hmerged.directory, fun l bytes mode hfile honly => ?_⟩
  · rintro e ⟨outs, hl, hr⟩
    exact hno outs e hl hr
  · refine hmerged.file l bytes mode hfile ?_
    rintro e ⟨outs, hl, hr⟩
    exact honly outs e hl hr

lemma linkless_empty (loc : Location) : FileSystem.empty.Linkless loc := by
  intro l target _ hl
  have hmem : l ∈ FileSystem.empty.entries := by
    rw [Std.ExtTreeMap.mem_iff_isSome_getElem?]
    exact Option.isSome_of_eq_some hl
  obtain rfl : [] = l := by simpa [FileSystem.empty] using hmem
  cases FileSystem.empty.get?_root.symm.trans hl

lemma placed_names {m : Manifest} {ctx : Context} {root dest : Path} {fs : FileSystem}
    {names outs : List Name} {action : Action}
    (hm : ∀ rel rule, m.lookup rel = some rule → rule.name = "")
    (h : Placed m ctx root dest fs names outs action) : outs = names := by
  induction h with
  | root => rfl
  | verbatim _ ih => rw [ih]
  | @entry above outs n k action action' s _ _ _ _ heff ih =>
    have hsame : sourceAt dest (n :: outs) = sourceAt dest (k :: outs) := by
      cases hrule : m.lookup (Path.text ⟨.relative, n :: above⟩) with
      | none =>
        rw [hrule] at heff
        cases heff
        rfl
      | some rule =>
        obtain ⟨a, text⟩ := rule
        obtain rfl : text = "" := hm _ _ hrule
        rw [hrule] at heff
        cases a <;> cases heff <;> rfl
    rw [ih, (List.cons.inj (congrArg Path.names hsame)).1]

lemma linkless_set {fs : FileSystem} {loc l : Location} {e : Entry} (h : fs.Linkless loc)
    (he : ∀ target, e ≠ .link target) : (fs.set l e).Linkless loc := by
  intro k target hk
  by_cases hc : fs.canHold l = true ∧ fs.get? l ≠ some .directory
  · rw [get?_set fs l k e hc.1 hc.2]
    split_ifs
    · simpa using he target
    · exact h k target hk
  · rw [FileSystem.set, dif_neg hc]
    exact h k target hk

def mergedFiles : FileSystem :=
  (((((((((FileSystem.empty.set ["t"] .directory).set ["a", "t"] .directory).set ["f", "a", "t"]
    (.file "new".toUTF8 0o644)).set ["b", "t"] .directory).set ["x", "t"]
    (.file "new".toUTF8 0o644)).set ["d"] .directory).set ["a", "d"] .directory).set
    ["f", "a", "d"] (.file "old".toUTF8 0o644)).set ["b", "d"] (.file "old".toUTF8 0o644)).set
    ["x", "d"] (.file "old".toUTF8 0o644)

def mergedManifest : Manifest :=
  { Manifest.empty with files := .ofList [("x", ⟨.ignore, ""⟩)] }

theorem materialize_preserves_conflict :
    (materialize mergedManifest ⟨∅, .here⟩ (Path.ofString "t") (Path.ofString "d")
      mergedFiles).2.get? ["x", "d"] = some (.file "old".toUTF8 0o644) ∧
    (materialize mergedManifest ⟨∅, .here⟩ (Path.ofString "t") (Path.ofString "d")
      mergedFiles).2.get? ["b", "d"] = some (.file "old".toUTF8 0o644) := by
  have hlinks (loc : Location) : mergedFiles.Linkless loc := by
    refine linkless_set (linkless_set (linkless_set (linkless_set (linkless_set (linkless_set
      (linkless_set (linkless_set (linkless_set (linkless_set (linkless_empty loc)
      ?_) ?_) ?_) ?_) ?_) ?_) ?_) ?_) ?_) ?_ <;> simp
  have h : Mergeable (Path.ofString "t") (Path.ofString "d") mergedFiles ["t"] ["d"] :=
    ⟨by decide +kernel, by decide +kernel, by decide, hlinks _, hlinks _⟩
  obtain ⟨hkept, -, hfile⟩ := materialize_preserves mergedManifest ⟨∅, .here⟩ _ _ _ _ _ h
  have hrules : ∀ rel rule, mergedManifest.lookup rel = some rule → rule.name = "" := by
    intro rel rule hrule
    by_cases hrel : "x" = rel
    · subst hrel
      exact (Option.some.inj hrule).symm ▸ rfl
    · rw [mergedManifest, Manifest.lookup, Bindings.get?_ofList] at hrule
      simp [Bindings.find, hrel] at hrule
  constructor
  · have hold : mergedFiles.get? ["x", "d"] = some (.file "old".toUTF8 0o644) := by decide +kernel
    rw [hkept _ ?_, hold]
    rintro outs e hl ⟨names, action, hne, hp, -⟩
    obtain rfl : [⟨"x", rfl⟩] = outs := under_injective (D := ["d"]) hl
    obtain rfl := placed_names hrules hp
    cases hp with
    | verbatim h => cases h
    | entry h _ _ _ heff => cases heff
  · refine hfile _ _ _ (by decide +kernel) ?_
    rintro outs e hl ⟨names, action, hne, hp, he⟩
    obtain rfl : [⟨"b", rfl⟩] = outs := under_injective (D := ["d"]) hl
    obtain rfl := placed_names hrules hp
    have hentry : mergedFiles.entryAt (sourceAt (Path.ofString "t") [⟨"b", rfl⟩]) =
        .ok .directory := by
      decide +kernel
    exact Except.ok.inj (he.symm.trans hentry)

end Walk

end Scaffold
