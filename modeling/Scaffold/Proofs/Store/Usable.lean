import Scaffold.Proofs.Store.Replacing

/-! A template that has been created can be used: it exists, it is listed, its name is taken, and it
can be removed again. That is so if its source was a directory, and only then. -/

namespace Scaffold

namespace FileSystem

section

variable {fs fs' : FileSystem} {p : Path} {k l : Location} {e : Entry}

lemma directory_of_set (he : e ≠ .directory) (h : (fs.set l e).get? k = some .directory) :
    fs.get? k = some .directory := by
  by_cases hc : fs.canHold l = true ∧ fs.get? l ≠ some .directory
  · rw [get?_set fs l k e hc.1 hc.2] at h
    split_ifs at h
    · exact absurd (Option.some.inj h) he
    · exact h
  · rwa [FileSystem.set, dif_neg hc] at h

lemma directory_of_makeLink {target : String} (h : fs.makeLink target p = .ok fs')
    (hk : fs'.get? k = some .directory) : fs.get? k = some .directory := by
  rw [makeLink] at h
  rcases hf : fs.find .entry p with r | (⟨l, e⟩ | l) <;> rw [hf] at h <;> cases h
  exact directory_of_set (by simp) hk

lemma directory_of_writeFile {bytes : ByteArray} (h : fs.writeFile p bytes = .ok fs')
    (hk : fs'.get? k = some .directory) : fs.get? k = some .directory := by
  rw [writeFile] at h
  rcases hf : fs.find .writing p with r | (⟨l, _ | _ | _ | _⟩ | l) <;> rw [hf] at h <;> cases h
  · exact directory_of_set (by simp) hk
  · exact hk
  · exact hk
  · exact directory_of_set (by simp) hk

lemma directory_of_setMode {mode : Nat} (h : fs.setMode p mode = .ok fs')
    (hk : fs'.get? k = some .directory) : fs.get? k = some .directory := by
  rw [setMode] at h
  rcases hf : fs.find .target p with r | (⟨l, _ | _ | _ | _⟩ | l) <;> rw [hf] at h <;> cases h
  · exact hk
  · exact directory_of_set (by simp) hk
  · exact hk
  · exact hk

end

end FileSystem

namespace Walk

open Attempt FileAction FileSystem

section

variable {fs fs' : FileSystem} {source dest : Path} {p : Pair} {k : Location} {e : Entry}

lemma directory_of_makeRoom {u : Unit} (h : makeRoom dest fs = (.ok u, fs'))
    (hk : fs'.get? k = some .directory) : fs.get? k = some .directory :=
  (makeRoom_clears h).frees.extends.get? hk

lemma directory_of_copyLink {u : Unit} (h : copyLink source dest fs = (.ok u, fs'))
    (hk : fs'.get? k = some .directory) : fs.get? k = some .directory := by
  obtain ⟨_, fs₁, hroom, hrest⟩ := bind_eq_ok h
  obtain ⟨target, fs₂, hread, hlink⟩ := bind_eq_ok hrest
  obtain ⟨rfl, -⟩ := ask_state hread
  exact directory_of_makeRoom hroom (directory_of_makeLink (change_eq_ok hlink) hk)

lemma directory_of_copyFile {u : Unit} (h : copyFile source dest fs = (.ok u, fs'))
    (hk : fs'.get? k = some .directory) : fs.get? k = some .directory := by
  obtain ⟨_, fs₁, hroom, hrest⟩ := bind_eq_ok h
  obtain ⟨pipe, fs₂, hpipe, hcopy⟩ := bind_eq_ok hrest
  obtain ⟨rfl, -⟩ := ask_state hpipe
  cases pipe with
  | true => cases hcopy
  | false =>
    obtain ⟨bytes, fs₃, hread, hput⟩ := bind_eq_ok hcopy
    obtain ⟨rfl, -⟩ := ask_state hread
    obtain ⟨_, fs₄, hwrite, hmode⟩ := bind_eq_ok hput
    obtain ⟨mode, fs₅, hask, hset⟩ := bind_eq_ok hmode
    obtain ⟨rfl, -⟩ := ask_state hask
    exact directory_of_makeRoom hroom (directory_of_writeFile (change_eq_ok hwrite)
      (directory_of_setMode (change_eq_ok hset) hk))

lemma directory_of_copyEntry {r : Path × List Name} (he : e ≠ .directory)
    (h : copyEntry p e fs = (.ok r, fs')) (hk : fs'.get? k = some .directory) :
    fs.get? k = some .directory := by
  cases e with
  | directory => exact absurd rfl he
  | pipe => cases h
  | link target =>
    obtain ⟨_, fs₁, hcopy, h⟩ := bind_eq_ok h
    cases h
    exact directory_of_copyLink hcopy hk
  | file bytes mode =>
    obtain ⟨_, fs₁, hcopy, h⟩ := bind_eq_ok h
    cases h
    exact directory_of_copyFile hcopy hk

end

end Walk

namespace Store

open Attempt FileAction FileSystem Walk

structure Usable (home : Home) (name : String) (fs : FileSystem) : Prop where
  known : Store.exists? home name fs = (.ok true, fs)
  listed : ∃ ks, names home fs = (.ok ks, fs) ∧ name ∈ ks
  taken : ∀ other, create home name other false fs = (.error (.templateExists name), fs)
  removable : ∃ fs', remove home name fs = (.ok (), fs') ∧
    Store.exists? home name fs' = (.ok false, fs') ∧
    ∀ other, (create home name other false fs').1 ≠ .error (.templateExists name)

section

variable {home : Home} {fs fs₁ fs' : FileSystem} {T : Location} {name : String} {n : Name}
  {source p q : Path} {overwrite : Bool} {dir : Path} {ns : List Name}

lemma clear_eq_ok (h : clear home name overwrite fs = (.ok p, fs₁)) :
    ∃ n T, Home.templateName? name = some n ∧ p = home.templates.child n ∧
      fs₁.Leads home.templates T := by
  cases hn : Home.templateName? name with
  | none =>
    rw [clear, path, Home.templateDirectory, hn] at h
    cases h
  | some n =>
    rcases clear_cases hn with ⟨e, he⟩ | ⟨T, e, -, he⟩ | ⟨fs₀, -, hmake⟩
    · cases he.symm.trans h
    · cases he.symm.trans h
    · obtain ⟨_, fs₂, hmade, hpure⟩ := bind_eq_ok (hmake.symm.trans h)
      cases hpure
      obtain ⟨T, hT⟩ := makeDirectories_leads hmade
      exact ⟨n, T, rfl, rfl, hT⟩

lemma create_eq_ok (hclear : clear home name overwrite fs = (.ok p, fs₁))
    (h : create home name source overwrite fs = (.ok q, fs')) :
    q = p ∧ copyTree source p fs₁ = (.ok (), fs') := by
  rw [create_eq, bind_of_ok hclear] at h
  obtain ⟨_, fs₂, hcopy, hpure⟩ := bind_eq_ok h
  cases hpure
  exact ⟨rfl, hcopy⟩

structure Shelved (home : Home) (n : Name) (T : Location) (fs fs' : FileSystem) : Prop where
  leads : fs.Leads home.templates T
  fits : (home.templates.child n).byteLength ≤ pathLimit
  vacant : fs.get? (n.1 :: T) = none
  grows : fs.Extends fs'
  agrees : fs.AgreesOutside fs' (n.1 :: T)
  directory : fs'.get? (n.1 :: T) = some .directory

lemma shelved_of_copy (hT : fs.Leads home.templates T) (hup : n.1 ≠ "..")
    (hfree : fs.exists? (home.templates.child n) ≠ .ok true)
    (hsource : fs.entryAt source = .ok .directory)
    (h : copyTree source (home.templates.child n) fs = (.ok (), fs')) :
    Shelved home n T fs fs' := by
  rcases hT.vacant_or_unchanged hup hfree with hvacant | ⟨hfails, -⟩
  swap
  · obtain ⟨S, hS⟩ := entryAt_eq_ok hsource
    have hcopy := (fails_copyTree hS hfails).1
    rw [h] at hcopy
    exact absurd hcopy (not_fails_ok _ _)
  have hnone := get?_of_vacant hvacant
  have hawaits : Awaits fs ⟨source, home.templates.child n⟩ (n.1 :: T) :=
    ⟨⟨home.templates, n, T, rfl, rfl, hup, hT⟩, hnone⟩
  obtain ⟨hgrows, hagrees⟩ := hawaits.copyTree
  rw [h] at hgrows hagrees
  refine ⟨hT, (find_eq_walk hvacant).2.1, hnone, hgrows, hagrees, ?_⟩
  rcases hopen : openDirectory source (home.templates.child n) fs with ⟨e | ⟨out, names⟩, fs₂⟩
  · obtain ⟨e, he⟩ := copyTree_of_unopened hsource hopen
    cases he.symm.trans h
  -- The directory is made first, and the rest of the copy only adds to it.
  have hready := hawaits.openDirectory.next _ _ _ hopen
  obtain ⟨_, fs₃, hmade, hlist⟩ := bind_eq_ok hopen
  cases (makeDirectories_of_none hvacant).symm.trans hmade
  obtain ⟨_, fs₄, hask, hpure⟩ := bind_eq_ok hlist
  obtain ⟨rfl, -⟩ := ask_state hask
  cases hpure
  have hrest := hready.run_children
  rw [← copyTree_of_opened hsource hopen, h] at hrest
  exact hrest.get? (get?_set_self (canHold_of_vacant hvacant) (by simp [hnone]))

lemma Shelved.nameable (h : Shelved home n T fs fs') (hn : Home.templateName? name = some n) :
    Nameable home name n :=
  ⟨hn, (get?_parent h.directory).1, h.fits⟩

lemma Shelved.denotes (h : Shelved home n T fs fs') :
    fs'.Denotes (home.templates.child n) (n.1 :: T) :=
  (h.leads.extends h.grows).denotes (get?_parent h.directory).1 h.fits

lemma Shelved.there (h : Shelved home n T fs fs') :
    fs'.Leads (home.templates.child n) (n.1 :: T) :=
  h.denotes.leads h.directory

lemma Shelved.eraseTree (h : Shelved home n T fs fs') : fs'.eraseTree (n.1 :: T) = fs := by
  have hne := List.cons_ne_nil n.1 T
  refine eq_of_get? ((agrees_eraseTree fs' hne).workDir.trans h.agrees.workDir) fun l => ?_
  rw [get?_eraseTree fs' _ l hne]
  by_cases hl : n.1 :: T <:+ l
  · obtain ⟨ks, rfl⟩ := hl
    rw [if_pos (List.suffix_append ks _)]
    rcases eq_or_ne ks [] with rfl | hks
    · exact h.vacant.symm
    · by_contra hsome
      obtain ⟨e, he⟩ := Option.ne_none_iff_exists'.mp (Ne.symm hsome)
      cases h.vacant.symm.trans (get?_of_below he hks)
  · rw [if_neg hl, h.agrees.get? l hl]

lemma Shelved.removeTree (h : Shelved home n T fs fs') :
    removeTree (home.templates.child n) fs' = (.ok (), fs) := by
  have hleft : (fs'.eraseBelow (n.1 :: T)).Leads home.templates T := by
    refine h.leads.extends ?_
    rw [← h.eraseTree, ← eraseTree_eraseBelow fs' (List.cons_ne_nil n.1 T)]
    exact eraseTree_extends _ (List.cons_ne_nil _ _)
  have hdir : (fs'.eraseBelow (n.1 :: T)).get? (n.1 :: T) = some .directory := by
    rw [get?_eraseBelow, if_neg fun hs => hs.2 rfl, h.directory]
  have hden := hleft.denotes (get?_parent h.directory).1 h.fits
  have hremoved := removeTree_of_there (List.cons_ne_nil n.1 T)
    (h.denotes.find_there h.directory (by simp) .entry) (hden.find_there hdir (by simp) .entry)
  rwa [h.eraseTree] at hremoved

lemma Shelved.names (h : Shelved home n T fs fs')
    (hlist : ∀ ns, fs'.list home.templates = .ok ns →
      ∀ m ∈ ns, ∃ b, fs'.isDirectory (home.templates.child m) = .ok b) :
    ∃ ks, names home fs' = (.ok ks, fs') ∧ n.1 ∈ ks := by
  have hleads := h.leads.extends h.grows
  obtain ⟨ns, hns, hnames⟩ := list_of_leads hleads
  have hasked : ∀ m ∈ ns, fs'.isDirectory (home.templates.child m) =
      .ok (decide (fs'.isDirectory (home.templates.child m) = .ok true)) := by
    intro m hm
    obtain ⟨b, hb⟩ := hlist ns hns m hm
    cases b <;> simp [hb]
  have hin : n.1 ∈ ns.map Subtype.val := by
    rw [hnames, fs'.mem_names, h.directory]
    rfl
  obtain ⟨m, hm, hval⟩ := List.mem_map.mp hin
  obtain rfl : m = n := Subtype.ext hval
  refine ⟨_, names_of_leads hleads hns hasked, List.mem_map_of_mem (List.mem_filter.mpr ⟨hm, ?_⟩)⟩
  exact decide_eq_true h.there.isDirectory

lemma create_raises (hn : Nameable home name n)
    (hfree : fs.exists? (home.templates.child n) = .ok false) (source : Path) (overwrite : Bool) :
    (create home name source overwrite fs).1 ≠ .error (.templateExists name) := by
  have hmeets : Raises (makeDirectories home.templates fs) (· ≠ .templateExists name) :=
    (makeDirectories_raises (List.mem_singleton.mpr rfl)).imp fun e he => by
      rintro rfl
      cases he with
      | ofWalk h => cases h
      | nul h =>
        obtain ⟨q, -, -, hq⟩ := h
        cases hq
  have hcopy (fs' : FileSystem) :
      Raises (copyTree source (home.templates.child n) fs') (· ≠ .templateExists name) :=
    (copyTree_raises source _ fs').imp fun e he => by
      rintro rfl
      rcases he with h | ⟨q, -, -, hq⟩
      · cases h
      · cases hq
  have hall : Raises (stock home n source fs) (· ≠ .templateExists name) :=
    hmeets.bind fun _ fs' _ => (hcopy fs').bind fun _ fs'' _ => raises_ok _ fs''
  rw [create_of_free hn hfree]
  exact fun he => hall _ he rfl

lemma Shelved.usable (h : Shelved home n T fs fs') (hn : Home.templateName? name = some n)
    (hlist : ∀ ns, fs'.list home.templates = .ok ns →
      ∀ m ∈ ns, ∃ b, fs'.isDirectory (home.templates.child m) = .ok b) :
    Usable home name fs' := by
  have hname := h.nameable hn
  have hp := hname.path_eq
  have hthere := h.there.isDirectory
  have hvacant := (h.leads.denotes hname.entry h.fits).find_vacant h.vacant .target
  have hgone (question : Entry → Bool) :
      FileSystem.ask (fs.targetAt (home.templates.child n)) question = .ok false := by
    rw [targetAt, hvacant]
    rfl
  obtain ⟨ks, hks, hmem⟩ := h.names hlist
  have hremove : Store.remove home name fs' = (.ok (), fs) := by
    rw [Store.remove, Store.directoryOf, hp, settle_ok, bind_apply, bind_of_ok (pure_apply _ fs'),
      bind_of_ok (ask_of_ok hthere), if_pos rfl]
    exact h.removeTree
  have hfree : Store.exists? home name fs = (.ok false, fs) := by
    rw [Store.exists?, hp, settle_ok, bind_of_ok (pure_apply _ fs)]
    exact ask_of_ok (hgone _)
  refine ⟨?_, ⟨ks, hks, templateName?_eq_some hn ▸ hmem⟩, fun other => ?_, fs, hremove, hfree,
    fun other => create_raises hname (hgone _) other false⟩
  · rw [Store.exists?, hp, settle_ok, bind_of_ok (pure_apply _ fs'), ask_of_ok hthere]
  · exact create_of_known hname h.there.exists?

lemma directoryOf_eq_ok (hn : Home.templateName? name = some n)
    (h : directoryOf home name fs = (.ok p, fs')) : p = home.templates.child n ∧ fs' = fs := by
  rw [directoryOf, path_of_templateName? hn, settle_ok, bind_of_ok (pure_apply _ fs)] at h
  obtain ⟨found, fs₁, hask, hend⟩ := bind_eq_ok h
  obtain ⟨rfl, -⟩ := ask_state hask
  cases found with
  | false => cases hend
  | true =>
    cases hend
    exact ⟨rfl, rfl⟩

lemma directory_of_usable (hT : fs.Leads home.templates T) (hn : Home.templateName? name = some n)
    (hfree : fs.exists? (home.templates.child n) ≠ .ok true)
    (h : copyTree source (home.templates.child n) fs = (.ok (), fs'))
    (hu : Usable home name fs') : fs.entryAt source = .ok .directory := by
  have hup := up_of_templateName? hn
  cases hentry : fs.entryAt source with
  | error r =>
    obtain ⟨e, he⟩ := copyTree_of_lost hentry (home.templates.child n)
    cases he.symm.trans h
  | ok e =>
    by_contra hne
    have hdir : e ≠ .directory := fun he => hne (he ▸ rfl)
    obtain ⟨hstate, hok⟩ := copyTree_of_leaf hentry hdir (home.templates.child n)
    rw [h] at hstate hok
    obtain ⟨r, hr⟩ := hok rfl
    have hcopy : copyEntry ⟨source, home.templates.child n⟩ e fs = (.ok r, fs') :=
      Prod.ext hr hstate.symm
    obtain ⟨fs₁, hfrees, hfills, hfinds⟩ :=
      copyEntry_replaces hdir ⟨source, home.templates.child n⟩ fs
    rw [hcopy] at hfills hfinds
    obtain ⟨-, q, s, hdest⟩ := hfinds r rfl
    have hway := hT.of_child hfrees.extends hdest
    obtain ⟨fs₂, hremoved, -⟩ := hu.removable
    obtain ⟨p, fs₃, hfound, hremove⟩ := bind_eq_ok hremoved
    obtain ⟨rfl, rfl⟩ := directoryOf_eq_ok hn hfound
    -- What can be removed is a directory, and it has been one before the file was copied.
    rcases removeTree_cases hup hremove with ⟨⟨e, he⟩, -⟩ | ⟨T', hT', hget, -⟩
    · cases he
    · cases hT'.symm.trans (hway.extends hfills.extends)
      obtain ⟨hname, hlen⟩ := hway.fits hup hdest
      have hthere := (hT.denotes hname hlen).leads (directory_of_copyEntry hdir hcopy hget)
      exact hfree hthere.exists?

lemma missing_of_made (hup : ∀ m ∈ home.root.names, m.1 ≠ "..")
    (hnone : ∀ T, ¬ fs.Leads home.templates T)
    (h : makeDirectories home.templates fs = (.ok (), fs₁)) : ∃ T, fs.Missing home.templates T := by
  have hok : ¬ Fails (makeDirectories home.templates fs) := by
    rw [h]
    exact not_fails_ok _ _
  have hnothing : ∀ l e, fs.find .entry home.templates ≠ .ok (.there l e) := by
    intro l e hl
    refine hok (fails_makeDirectories_of_there hl fun hdir => ?_)
    obtain ⟨T, hT⟩ := leads_of_isDirectory hdir
    exact hnone T hT
  have hnames : ∀ m ∈ home.templates.names, m.1 ≠ ".." :=
    List.forall_mem_cons.mpr ⟨by decide, hup⟩
  have habsent : fs.Absent home.templates :=
    ⟨hnothing, fun m names hs hm => absurd hm (hnames m (hs.subset List.mem_cons_self))⟩
  exact habsent.missing_or_fails.resolve_right hok

lemma not_exists_of_clear (hup : ∀ m ∈ home.root.names, m.1 ≠ "..")
    (h : clear home name overwrite fs = (.ok p, fs₁)) : fs₁.exists? p ≠ .ok true := by
  obtain ⟨n, -, hn, rfl, -⟩ := clear_eq_ok h
  have hname := up_of_templateName? hn
  rcases clear_cases hn with ⟨e, he⟩ | ⟨T, e, -, he⟩ | ⟨fs₀, hemptied, hmake⟩
  · cases he.symm.trans h
  · cases he.symm.trans h
  obtain ⟨_, fs₂, hmade, hpure⟩ := bind_eq_ok (hmake.symm.trans h)
  cases hpure
  by_cases hleads : ∃ T, fs₀.Leads home.templates T
  · obtain ⟨T, hT⟩ := hleads
    cases (makeDirectories_of_leads hT).symm.trans hmade
    exact hemptied.not_exists hname hT
  · obtain ⟨T, hT⟩ := missing_of_made hup (not_exists.mp hleads) hmade
    obtain ⟨hopen, ho, hT₁⟩ := hT.opened
    cases hopen.symm.trans hmade
    exact hT₁.not_exists hname (ho.holds.get?_child n.1)

end

/-- Just a directory makes a template that can be used, if nothing is in its place when it is copied
and the system has an answer for each entry that is listed with it. -/
theorem create_usable_iff {home : Home} {name : String} {source p q : Path} {overwrite : Bool}
    {fs fs₁ fs' : FileSystem} (hclear : clear home name overwrite fs = (.ok p, fs₁))
    (hfree : fs₁.exists? p ≠ .ok true)
    (hcreate : create home name source overwrite fs = (.ok q, fs'))
    (hlist : ∀ ns, fs'.list home.templates = .ok ns →
      ∀ m ∈ ns, ∃ b, fs'.isDirectory (home.templates.child m) = .ok b) :
    Usable home name fs' ↔ fs₁.entryAt source = .ok .directory := by
  obtain ⟨n, T, hn, rfl, hT⟩ := clear_eq_ok hclear
  obtain ⟨rfl, hcopy⟩ := create_eq_ok hclear hcreate
  constructor
  · exact directory_of_usable hT hn hfree hcopy
  · intro hsource
    exact (shelved_of_copy hT (up_of_templateName? hn) hfree hsource hcopy).usable hn hlist

theorem create_usable_directory : ∃ fs', create newHome "n" ⟨.relative, [⟨"s", rfl⟩]⟩ false
      greetingFiles = (.ok (newHome.templates.child ⟨"n", rfl⟩), fs') ∧
    Usable newHome "n" fs' := by
  have hn := newHome_nameable
  have hexists := greetingFiles_unmade.ask_child hn fun _ => true
  have hclear : clear newHome "n" false greetingFiles =
      (.ok (newHome.templates.child ⟨"n", rfl⟩), greetingFiles.openTo ["templates", "home"]) := by
    rw [clear, hn.path_eq, settle_ok, bind_of_ok (pure_apply _ _), bind_of_ok (ask_of_ok hexists),
      if_neg Bool.false_ne_true]
    exact bind_of_ok greetingFiles_missing.opened.1 _
  have hfree : create newHome "n" ⟨.relative, [⟨"s", rfl⟩]⟩ false greetingFiles = _ :=
    create_of_free hn hexists
  have hcreate := hfree.trans
    ((greetingFiles_offers.stock_first greetingFiles_missing hn).1 greeting_fits)
  refine ⟨_, hcreate, (create_usable_iff hclear ?_ hcreate ?_).mpr ?_⟩
  · exact not_exists_of_clear (by decide) hclear
  · intro ns hns m hm
    have hnames : ns = [⟨"n", rfl⟩] := by
      refine Except.ok.inj (hns.symm.trans ?_)
      decide +kernel
    subst hnames
    obtain rfl := List.mem_singleton.mp hm
    exact ⟨true, by decide +kernel⟩
  · decide +kernel

def plainFiles : FileSystem :=
  ((FileSystem.empty.set ["home"] .directory).set ["templates", "home"] .directory).set ["s"]
    (.file "text".toUTF8 0o644)

/-- Of a file that has been stored nothing is known, but its name is taken, and for good. -/
theorem create_stores_file : ∃ fs',
    create newHome "n" (Path.ofString "s") false plainFiles =
      (.ok (newHome.templates.child ⟨"n", rfl⟩), fs') ∧
    (Store.exists? newHome "n" fs').1 = .ok false ∧
    (names newHome fs').1 = .ok [] ∧
    (create newHome "n" (Path.ofString "s") false fs').1 = .error (.templateExists "n") ∧
    (remove newHome "n" fs').1 = .error (.noTemplate "n") := by
  have hclear : clear newHome "n" false plainFiles =
      (.ok (newHome.templates.child ⟨"n", rfl⟩), plainFiles) := by
    have hfree : plainFiles.exists? (newHome.templates.child ⟨"n", rfl⟩) = .ok false := by
      decide +kernel
    rw [clear, newHome_nameable.path_eq, settle_ok, bind_of_ok (pure_apply _ _),
      bind_of_ok (ask_of_ok hfree), if_neg Bool.false_ne_true]
    exact bind_of_ok (makeDirectories_of_leads (l := ["templates", "home"]) (by decide +kernel)) _
  have hrun : (runWithin copyVisit 1
      [⟨Path.ofString "s", newHome.templates.child ⟨"n", rfl⟩⟩] plainFiles).map (fun r =>
        (r.1, (Store.exists? newHome "n" r.2).1, (names newHome r.2).1)) =
      some (.ok (), .ok false, .ok []) := by
    decide +kernel
  have hlater : (runWithin copyVisit 1
      [⟨Path.ofString "s", newHome.templates.child ⟨"n", rfl⟩⟩] plainFiles).map (fun r =>
        ((create newHome "n" (Path.ofString "s") false r.2).1, (remove newHome "n" r.2).1)) =
      some (.error (.templateExists "n"), .error (.noTemplate "n")) := by
    decide +kernel
  obtain ⟨⟨r, fs'⟩, hr, hvalues⟩ := Option.map_eq_some_iff.mp hrun
  rw [hr] at hlater
  simp only [Option.map_some, Option.some.injEq, Prod.mk.injEq] at hvalues hlater
  obtain ⟨rfl, hexists, hnames⟩ := hvalues
  have hcopy : copyTree (Path.ofString "s") (newHome.templates.child ⟨"n", rfl⟩) plainFiles =
      (.ok (), fs') :=
    run_of_runWithin hr
  refine ⟨fs', ?_, hexists, hnames, hlater⟩
  rw [create_eq, bind_of_ok hclear]
  exact bind_of_ok hcopy _

end Store

end Scaffold
