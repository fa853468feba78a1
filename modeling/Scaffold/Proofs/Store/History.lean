import Scaffold.Proofs.Store.Changing

/-! A store is a finite map from names to trees. Whatever has been asked of it before, it answers
and changes as the map does. Of a copy that ended too early there is what had been copied by
then. -/

namespace Scaffold.Store

open Attempt FileAction FileSystem

def Apt (home : Home) (name : String) : Prop :=
  ∀ n, Home.templateName? name = some n → Nameable home name n

structure Untouched (home : Home) (fs fs' : FileSystem) : Prop where
  unmade : Unmade home fs → Unmade home fs'
  stays : ∀ T, fs.Anchored home.templates T →
    fs'.Anchored home.templates T ∧ ∀ l, T <:+ l → fs'.get? l = fs.get? l

/-- There is the tree under the name, or nothing at all. -/
def Leaves (home : Home) (fs : FileSystem) (name : String) : Option Forest → Prop
  | none => ∀ n l e, Home.templateName? name = some n →
      fs.find .entry (home.templates.child n) ≠ .ok (.there l e)
  | some f => ∃ n L, Home.templateName? name = some n ∧ fs.Leads (home.templates.child n) L ∧
    fs.Holds L (.directory f) ∧ f.Sorted

/-- What has happened to a home that was not there at first, and the map that has come of it: a
template that was made is in it with the tree that its source had then. After a failure the map goes
on with what is left under the name, which `Serves.create_leaves` says. -/
inductive History (home : Home) : FileSystem → Shelf → Prop
  | start {fs : FileSystem} (h : Unmade home fs) : History home fs fun _ => none
  | elsewhere {fs fs' : FileSystem} {shelf : Shelf} (h : History home fs shelf)
      (hu : Untouched home fs fs') : History home fs' shelf
  | created {fs fs' : FileSystem} {shelf : Shelf} {name : String} {source p : Path}
      {overwrite : Bool} {S : Location} {f : Forest} (h : History home fs shelf)
      (hn : Apt home name) (ho : Offers home fs source S f)
      (hc : create home name source overwrite fs = (.ok p, fs')) :
      History home fs' (Function.update shelf name (some f))
  | notCreated {fs fs' : FileSystem} {shelf : Shelf} {name : String} {source : Path}
      {overwrite : Bool} {S : Location} {f : Forest} {e : Failure} {x : Option Forest}
      (h : History home fs shelf) (hn : Apt home name) (ho : Offers home fs source S f)
      (hc : create home name source overwrite fs = (.error e, fs')) (hx : Leaves home fs' name x) :
      History home fs' (Function.update shelf name x)
  | edited {fs fs' : FileSystem} {shelf : Shelf} {name : String} {dest : Path}
      {r : Except Failure Unit} (h : History home fs shelf) (hn : Apt home name)
      (hd : Free home fs dest) (he : edit home name dest fs = (r, fs')) : History home fs' shelf
  | removed {fs fs' : FileSystem} {shelf : Shelf} {name : String} (h : History home fs shelf)
      (hn : Apt home name) (hr : remove home name fs = (.ok (), fs')) :
      History home fs' (Function.update shelf name none)
  | notRemoved {fs fs' : FileSystem} {shelf : Shelf} {name : String} {e : Failure}
      (h : History home fs shelf) (hn : Apt home name)
      (hr : remove home name fs = (.error e, fs')) : History home fs' shelf
  | asked {fs fs' : FileSystem} {shelf : Shelf} {name : String} {r : Except Failure Bool}
      (h : History home fs shelf) (hn : Apt home name)
      (ha : exists? home name fs = (r, fs')) : History home fs' shelf
  | listed {fs fs' : FileSystem} {shelf : Shelf} {r : Except Failure (List String)}
      (h : History home fs shelf) (hl : names home fs = (r, fs')) : History home fs' shelf

structure Refuses (home : Home) (name : String) (fs : FileSystem) (e : Failure) : Prop where
  edit : ∀ dest, Store.edit home name dest fs = (.error e, fs)
  remove : Store.remove home name fs = (.error e, fs)
  load : ∀ dest vars (host : Host), host.files = fs →
    Store.load home name dest vars host = (.error e, host)

/-- Whatever is asked for, the store does what the map does. -/
structure Serves (home : Home) (fs : FileSystem) (shelf : Shelf) : Prop where
  exists_eq : ∀ {name n}, Nameable home name n →
    exists? home name fs = (.ok (shelf name).isSome, fs)
  names_eq : ∃ ks, names home fs = (.ok ks, fs) ∧ ks.Pairwise (· < ·) ∧
    ∀ k, k ∈ ks ↔ (shelf k).isSome
  edit_whole : ∀ {name n f dest}, Nameable home name n → shelf name = some f →
    Free home fs dest →
    Fails (edit home name dest fs) ∨ Copied fs dest f (edit home name dest fs).2
  edit_fits : ∀ {name n f dest D}, Nameable home name n → shelf name = some f →
    Free home fs dest → fs.Missing dest D → f.Fits ⟨home.templates.child n, dest⟩ →
    ∃ fs', edit home name dest fs = (.ok (), fs')
  remove_known : ∀ {name n}, Nameable home name n → (shelf name).isSome →
    ∃ fs', remove home name fs = (.ok (), fs')
  create_fits : ∀ {name n source overwrite S f T}, Nameable home name n →
    Offers home fs source S f → Seat home fs T →
    (shelf name = none ∨ overwrite = true ∧ ∀ T, fs.Anchored home.templates T →
      (fs.eraseTree (name :: T)).entryAt source = .ok .directory) →
    f.Fits ⟨source, home.templates.child n⟩ →
    ∃ fs', create home name source overwrite fs = (.ok (home.templates.child n), fs')
  create_leaves : ∀ {name n source overwrite S f e fs'}, Nameable home name n →
    Offers home fs source S f → overwrite = true ∨ shelf name = none →
    create home name source overwrite fs = (.error e, fs') →
    ∃ x, Leaves home fs' name x ∧
      (∀ g, x = some g → f.CutShort ⟨source, home.templates.child n⟩ g) ∧
      ∀ k, k ≠ name → Apt home k → Leaves home fs' k (shelf k)
  create_known : ∀ {name n source}, Nameable home name n → (shelf name).isSome →
    create home name source false fs = (.error (.templateExists name), fs)
  unknown : ∀ {name n}, Nameable home name n → shelf name = none →
    Refuses home name fs (.noTemplate name)
  invalid : ∀ {name}, Home.templateName? name = none →
    Refuses home name fs (.obstacle (.badTemplateName name)) ∧
    exists? home name fs = (.error (.obstacle (.badTemplateName name)), fs) ∧
    ∀ source overwrite, create home name source overwrite fs =
      (.error (.obstacle (.badTemplateName name)), fs)

section

variable {home : Home} {fs fs' : FileSystem} {T : Location} {shelf : Shelf} {name : String}
  {n : Name} {f : Forest} {x : Option Forest} {source dest : Path} {overwrite : Bool}

lemma refuses_of_error {e : Failure} (h : directoryOf home name fs = (.error e, fs)) :
    Refuses home name fs e := by
  refine ⟨fun dest => ?_, ?_, fun dest vars host hhost => ?_⟩
  · rw [edit]
    exact bind_of_error h _
  · rw [remove]
    exact bind_of_error h _
  · subst hhost
    have hhost : (directoryOf home name).onHost host = (.error e, host) := by rw [onHost, h]
    rw [load]
    exact bind_of_error hhost _

lemma refuses_of_invalid (h : Home.templateName? name = none) (fs : FileSystem) :
    Refuses home name fs (.obstacle (.badTemplateName name)) ∧
    exists? home name fs = (.error (.obstacle (.badTemplateName name)), fs) ∧
    ∀ source overwrite, create home name source overwrite fs =
      (.error (.obstacle (.badTemplateName name)), fs) := by
  have hpath : path home name = .error (.obstacle (.badTemplateName name)) := by
    rw [path, Home.templateDirectory, h]
  refine ⟨refuses_of_error ?_, ?_, fun source overwrite => ?_⟩
  · rw [directoryOf, hpath]
    rfl
  · rw [exists?, hpath]
    rfl
  · rw [create, hpath]
    rfl

lemma Keeps.unknown (h : Keeps home fs shelf) (hn : Nameable home name n)
    (hk : shelf name = none) : Refuses home name fs (.noTemplate name) := by
  have hdir := h.directoryOf hn
  rw [hk] at hdir
  exact refuses_of_error hdir

lemma Keeps.nameable (h : Keeps home fs shelf) (hk : shelf name = some f) :
    ∃ n, Nameable home name n := by
  obtain ⟨T, h⟩ := h.holding hk
  exact h.nameable hk

lemma Keeps.not_there (h : Keeps home fs shelf) (hn : Nameable home name n)
    (hk : shelf name = none) {l : Location} {e : Entry} :
    fs.find .entry (home.templates.child n) ≠ .ok (.there l e) := by
  intro hl
  rcases h with ⟨hno, -⟩ | ⟨T, h⟩
  · obtain ⟨r, hr, hfind⟩ := hno.lost
    obtain ⟨r', -, hchild⟩ := find_child_of_lost hr (congrArg lost? (hfind .target)) hn.fits
    cases (hchild .entry).symm.trans hl
  · have hnone : fs.get? (n.1 :: T) = none := by
      rw [hn.val_eq]
      exact h.free name hk
    cases ((h.place hn).find_entry.trans (by rw [spotAt, hnone])).symm.trans hl

lemma Keeps.leaves (h : Keeps home fs shelf) (hn : Apt home name) :
    Leaves home fs name (shelf name) := by
  cases hk : shelf name with
  | none => exact fun n l e ht => h.not_there (hn n ht) hk
  | some f =>
    obtain ⟨n, hn⟩ := h.nameable hk
    obtain ⟨T, h⟩ := h.holding hk
    obtain ⟨hf, hs⟩ := h.full name f hk
    rw [← hn.val_eq] at hf
    exact ⟨n, n.1 :: T, hn.template, ((h.place hn).denotes fs (.refl fs _)).leads hf.get?_self, hf,
      hs⟩

lemma Keeps.leaves_unique (h : Keeps home fs shelf) (hn : Apt home name)
    (hx : Leaves home fs name x) : x = shelf name := by
  cases x with
  | none =>
    cases hk : shelf name with
    | none => rfl
    | some f =>
      obtain ⟨n, hn⟩ := h.nameable hk
      obtain ⟨T, h⟩ := h.holding hk
      have hf := (h.full name f hk).1
      rw [← hn.val_eq] at hf
      refine absurd ((h.place hn).find_entry.trans ?_) (hx n (n.1 :: T) .directory hn.template)
      rw [spotAt_of_some hf.get?_self]
      rfl
  | some g =>
    obtain ⟨n, L, ht, hleads, hg, hgs⟩ := hx
    have hn := hn n ht
    have hsome : (shelf name).isSome := by
      have hask : fs.isDirectory (home.templates.child n) = _ := h.ask_child hn rfl
      rw [hleads.isDirectory] at hask
      exact (Except.ok.inj hask).symm
    obtain ⟨f, hf⟩ := Option.isSome_iff_exists.mp hsome
    obtain ⟨T, h⟩ := h.holding hf
    obtain ⟨hh, hs⟩ := h.full name f hf
    rw [← hn.val_eq] at hh
    have hleads' := ((h.place hn).denotes fs (.refl fs _)).leads hh.get?_self
    have hspot := Except.ok.inj (hleads.symm.trans hleads')
    cases hspot
    rw [hf, Tree.directory.inj (hg.unique hh hgs hs)]

lemma Keeps.elsewhere (h : Keeps home fs shelf) (hu : Untouched home fs fs') :
    Keeps home fs' shelf := by
  rcases h with ⟨hno, hs⟩ | ⟨T, h⟩
  · exact .inl ⟨hu.unmade hno, hs⟩
  · obtain ⟨ha, hT⟩ := hu.stays T h.anchored
    exact .inr ⟨T, h.keep ha hT⟩

lemma Keeps.create_cases {S : Location} (h : Keeps home fs shelf) (hn : Apt home name)
    (ho : Offers home fs source S f) :
    (∃ e, Store.create home name source overwrite fs = (.error e, fs)) ∨
    ∃ n, Stocked (Keeps home) shelf name ⟨source, home.templates.child n⟩ f
      (Store.create home name source overwrite fs) := by
  cases ht : Home.templateName? name with
  | none => exact .inl ⟨_, (refuses_of_invalid ht fs).2.2 source overwrite⟩
  | some n =>
    by_cases hfree : overwrite = true ∨ shelf name = none
    · exact .inr ⟨n, h.create (hn n ht) ho hfree⟩
    · obtain ⟨hover, hk⟩ := not_or.mp hfree
      obtain rfl : overwrite = false := Bool.eq_false_iff.mpr hover
      exact .inl ⟨_, h.create_known (hn n ht) (Option.isSome_iff_ne_none.mpr hk)⟩

lemma Keeps.created {S : Location} {p : Path} (h : Keeps home fs shelf) (hn : Apt home name)
    (ho : Offers home fs source S f)
    (hc : Store.create home name source overwrite fs = (.ok p, fs')) :
    Keeps home fs' (Function.update shelf name (some f)) := by
  rcases h.create_cases hn ho with ⟨e, he⟩ | ⟨n, x, hx, hf⟩
  · cases he.symm.trans hc
  · rw [hc] at hx hf
    obtain rfl : x = some f := hf
    exact hx

lemma Keeps.notCreated {S : Location} {e : Failure} (h : Keeps home fs shelf)
    (hn : Apt home name) (ho : Offers home fs source S f)
    (hc : Store.create home name source overwrite fs = (.error e, fs')) :
    ∃ x, Keeps home fs' (Function.update shelf name x) ∧ Leaves home fs' name x := by
  rcases h.create_cases hn ho with ⟨d, hd⟩ | ⟨n, x, hx, -⟩
  · cases hd.symm.trans hc
    refine ⟨shelf name, ?_, h.leaves hn⟩
    rw [Function.update_eq_self]
    exact h
  · rw [hc] at hx
    have hleft := hx.leaves hn
    rw [Function.update_self] at hleft
    exact ⟨x, hx, hleft⟩

lemma Keeps.create_leaves {S : Location} {e : Failure} (h : Keeps home fs shelf)
    (hn : Nameable home name n) (ho : Offers home fs source S f)
    (hfree : overwrite = true ∨ shelf name = none)
    (hc : Store.create home name source overwrite fs = (.error e, fs')) :
    ∃ x, Leaves home fs' name x ∧
      (∀ g, x = some g → f.CutShort ⟨source, home.templates.child n⟩ g) ∧
      ∀ k, k ≠ name → Apt home k → Leaves home fs' k (shelf k) := by
  obtain ⟨x, hx, hf⟩ := h.create hn ho hfree
  rw [hc] at hx hf
  have hapt : Apt home name := fun m hm => by
    obtain rfl := Option.some.inj (hn.template.symm.trans hm)
    exact hn
  have hleft := hx.leaves hapt
  rw [Function.update_self] at hleft
  refine ⟨x, hleft, hf, fun k hk hka => ?_⟩
  have hother := hx.leaves hka
  rwa [Function.update_of_ne hk] at hother

lemma Keeps.edited {r : Except Failure Unit} (h : Keeps home fs shelf) (hn : Apt home name)
    (hd : Free home fs dest) (he : Store.edit home name dest fs = (r, fs')) :
    Keeps home fs' shelf := by
  have hsame {e : Failure} (hr : Refuses home name fs e) : Keeps home fs' shelf := by
    cases (hr.edit dest).symm.trans he
    exact h
  cases ht : Home.templateName? name with
  | none => exact hsame (refuses_of_invalid ht fs).1
  | some n =>
    cases hk : shelf name with
    | none => exact hsame (h.unknown (hn n ht) hk)
    | some f =>
      have hkeeps := (h.edit (hn n ht) hk hd).2.2
      rw [he] at hkeeps
      exact hkeeps

lemma Keeps.remove_cases (h : Keeps home fs shelf) (hn : Apt home name) :
    (∃ e, Store.remove home name fs = (.error e, fs)) ∨
    ∃ fs', Store.remove home name fs = (.ok (), fs') ∧
      Keeps home fs' (Function.update shelf name none) := by
  cases ht : Home.templateName? name with
  | none => exact .inl ⟨_, (refuses_of_invalid ht fs).1.remove⟩
  | some n =>
    cases hk : shelf name with
    | none => exact .inl ⟨_, (h.unknown (hn n ht) hk).remove⟩
    | some f => exact .inr (h.remove (hn n ht) (by rw [hk]; rfl))

lemma Keeps.exists?_snd (h : Keeps home fs shelf) (hn : Apt home name) :
    (Store.exists? home name fs).2 = fs := by
  cases ht : Home.templateName? name with
  | none => rw [(refuses_of_invalid ht fs).2.1]
  | some n => rw [h.exists? (hn n ht)]

lemma History.keeps (h : History home fs shelf) : Keeps home fs shelf := by
  induction h with
  | start h => exact .inl ⟨h, rfl⟩
  | elsewhere _ hu ih => exact ih.elsewhere hu
  | created _ hn ho hc ih => exact ih.created hn ho hc
  | notCreated _ hn ho hc hx ih =>
    -- The files determine what is left, so it is what the copy has put there.
    obtain ⟨y, hy, hleft⟩ := ih.notCreated hn ho hc
    have hxy := hy.leaves_unique hn hx
    rw [Function.update_self] at hxy
    rw [hxy]
    exact hy
  | edited _ hn hd he ih => exact ih.edited hn hd he
  | removed _ hn hr ih =>
    rcases ih.remove_cases hn with ⟨e, he⟩ | ⟨fs', hr', hkeeps⟩
    · cases he.symm.trans hr
    · cases hr'.symm.trans hr
      exact hkeeps
  | notRemoved _ hn hr ih =>
    rcases ih.remove_cases hn with ⟨e, he⟩ | ⟨fs', hr', -⟩
    · cases he.symm.trans hr
      exact ih
    · cases hr'.symm.trans hr
  | asked _ hn ha ih =>
    have hsame := ih.exists?_snd hn
    rw [ha] at hsame
    subst hsame
    exact ih
  | listed _ hl ih =>
    obtain ⟨ks, hks, -⟩ := ih.names
    cases hks.symm.trans hl
    exact ih

lemma Keeps.serves (h : Keeps home fs shelf) : Serves home fs shelf where
  exists_eq := h.exists?
  names_eq := h.names
  edit_whole hn hk hd := (h.edit hn hk hd).2.1
  edit_fits hn hk hd hD hfit := (h.edit hn hk hd).1 ⟨_, hD⟩ hfit
  remove_known hn hk := by
    obtain ⟨fs', hr, -⟩ := h.remove hn hk
    exact ⟨fs', hr⟩
  create_fits hn ho hT hclear hfit := h.create_fits hn ho hT hclear hfit
  create_leaves hn ho hfree hc := h.create_leaves hn ho hfree hc
  create_known hn hk := h.create_known hn hk
  unknown hn hk := h.unknown hn hk
  invalid ht := refuses_of_invalid ht fs

end

theorem serves_of_history (home : Home) (fs : FileSystem) (shelf : Shelf)
    (h : History home fs shelf) : Serves home fs shelf :=
  h.keeps.serves

def greeting : Forest :=
  .cons ⟨"f", rfl⟩ (.file "new".toUTF8 0o644) .nil

def greetingFiles : FileSystem :=
  greeting.writeTo (FileSystem.empty.set ["s"] .directory) ["s"]

def newHome : Home := ⟨⟨.relative, [⟨"home", rfl⟩]⟩⟩

lemma greetingFiles_unmade : Unmade newHome greetingFiles := by
  refine ⟨⟨fun l e h => ?_, fun n names hn hup => ?_⟩, rfl, fun n hn _ => ?_, by decide⟩
  · cases h
  · obtain rfl : n = ⟨"home", rfl⟩ := List.mem_singleton.mp (hn.subset List.mem_cons_self)
    simp at hup
  · obtain rfl := List.mem_singleton.mp hn
    rfl

lemma greetingFiles_missing : greetingFiles.Missing newHome.templates ["templates", "home"] :=
  .child (p := newHome.root) (n := Home.templatesName) rfl rfl (.vacant rfl)

lemma greetingFiles_offers :
    Offers newHome greetingFiles ⟨.relative, [⟨"s", rfl⟩]⟩ ["s"] greeting := by
  have hproper : greeting.Proper := ⟨rfl, by decide, trivial, trivial⟩
  have hempty : (FileSystem.empty.set ["s"] .directory).Holds ["s"] (.directory .nil) :=
    (Tree.holds_writeTo (.directory .nil) trivial rfl rfl).1
  refine ⟨rfl, (Forest.holds_writeTo hproper hempty).1, ⟨by decide, trivial, trivial⟩, ?_⟩
  rintro T (hT | hT)
  · exact absurd hT (greetingFiles_unmade.not_anchored T)
  · obtain rfl := greetingFiles_missing.unique hT
    decide

lemma newHome_nameable : Nameable newHome "n" ⟨"n", rfl⟩ :=
  ⟨rfl, rfl, by decide⟩

lemma greeting_fits :
    greeting.Fits ⟨⟨.relative, [⟨"s", rfl⟩]⟩, newHome.templates.child ⟨"n", rfl⟩⟩ :=
  ⟨rfl, trivial⟩

theorem serves_of_history_twice : ∃ fs₁ fs₂ p,
    create newHome "n" ⟨.relative, [⟨"s", rfl⟩]⟩ false greetingFiles = (.ok p, fs₁) ∧
    exists? newHome "n" fs₁ = (.ok true, fs₁) ∧
    remove newHome "n" fs₁ = (.ok (), fs₂) ∧
    exists? newHome "n" fs₂ = (.ok false, fs₂) := by
  have hn := newHome_nameable
  have hapt : Apt newHome "n" := fun m hm => by
    obtain rfl := Option.some.inj (hn.template.symm.trans hm)
    exact hn
  have hstart : History newHome greetingFiles fun _ => none := .start greetingFiles_unmade
  obtain ⟨fs₁, hfs₁⟩ : ∃ fs', create newHome "n" ⟨.relative, [⟨"s", rfl⟩]⟩ false greetingFiles =
      (.ok (newHome.templates.child ⟨"n", rfl⟩), fs') :=
    (serves_of_history _ _ _ hstart).create_fits hn greetingFiles_offers
      (.inr greetingFiles_missing) (.inl rfl) greeting_fits
  have hcreated := hstart.created hapt greetingFiles_offers hfs₁
  have hserves := serves_of_history _ _ _ hcreated
  have hexists := hserves.exists_eq hn
  rw [Function.update_self] at hexists
  obtain ⟨fs₂, hfs₂⟩ := hserves.remove_known hn (by rw [Function.update_self]; rfl)
  have hgone := (serves_of_history _ _ _ (hcreated.removed hapt hfs₂)).exists_eq hn
  rw [Function.update_self] at hgone
  exact ⟨fs₁, fs₂, _, hfs₁, hexists, hfs₂, hgone⟩

def roundabout : Path :=
  ⟨.relative, [⟨"s", rfl⟩, ⟨"..", rfl⟩, ⟨"..", rfl⟩, ⟨"..", rfl⟩, ⟨"n", rfl⟩, ⟨"templates", rfl⟩,
    ⟨"home", rfl⟩]⟩

/-- A directory far from the home is the source, but the way to it leads through the old tree. The
template is lost. -/
theorem create_loses_template : ∃ fs₁ fs₂ p e,
    Unmade newHome greetingFiles ∧
    create newHome "n" ⟨.relative, [⟨"s", rfl⟩]⟩ false greetingFiles = (.ok p, fs₁) ∧
    fs₁.find .entry roundabout = .ok (.there ["s"] .directory) ∧
    create newHome "n" roundabout true fs₁ = (.error e, fs₂) ∧
    exists? newHome "n" fs₂ = (.ok false, fs₂) := by
  have hn := newHome_nameable
  obtain ⟨hdone, hall⟩ := greetingFiles_offers.stock_first greetingFiles_missing hn
  have hfree : create newHome "n" ⟨.relative, [⟨"s", rfl⟩]⟩ false greetingFiles = _ :=
    create_of_free hn (greetingFiles_unmade.ask_child hn _)
  have hcreate := hfree.trans (hdone greeting_fits)
  rw [hdone greeting_fits] at hall
  obtain ⟨x, hT, hx⟩ := hall
  obtain rfl : x = some greeting := hx
  have hlost : ((greeting.writeTo ((greetingFiles.openTo ["templates", "home"]).openTo
      ["n", "templates", "home"]) ["n", "templates", "home"]).eraseTree
        ["n", "templates", "home"]).entryAt roundabout = .error .noEntry := by
    decide +kernel
  obtain ⟨e, he⟩ := hT.create_lost hn (by rw [Function.update_self]; rfl) hlost
  have hgone := Keeps.exists? (.inr ⟨_, hT.without hn⟩) hn
  rw [Function.update_self] at hgone
  exact ⟨_, _, _, e, greetingFiles_unmade, hcreate, rfl, he, hgone⟩

end Scaffold.Store
