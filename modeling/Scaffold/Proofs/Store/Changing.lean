import Scaffold.Proofs.Store.Shelf

namespace Scaffold

namespace FileSystem

section

variable {fs : FileSystem} {T S : Location}

lemma apart_child (h : ¬ T <:+ S) (h' : ¬ S <:+ T) (k : String) :
    ¬ k :: T <:+ S ∧ ¬ S <:+ k :: T := by
  refine ⟨fun hs => h ((List.suffix_cons k T).trans hs), fun hs => ?_⟩
  rcases List.suffix_cons_iff.mp hs with rfl | hs
  · exact h (List.suffix_cons k T)
  · exact h' hs

lemma agrees_eraseTree (fs : FileSystem) {loc : Location} (h : loc ≠ []) :
    fs.AgreesOutside (fs.eraseTree loc) loc := by
  refine ⟨by rw [eraseTree, dif_neg h], fun l hl => ?_⟩
  rw [get?_eraseTree fs loc l h, if_neg hl]

lemma eraseTree_extends (fs : FileSystem) {loc : Location} (h : loc ≠ []) :
    (fs.eraseTree loc).Extends fs := by
  refine ⟨(agrees_eraseTree fs h).workDir.symm, fun {l e} hl => ?_⟩
  rw [get?_eraseTree fs loc l h] at hl
  split_ifs at hl
  exact hl

lemma agrees_eraseBelow (fs : FileSystem) (T : Location) :
    fs.AgreesOutside (fs.eraseBelow T) T := by
  refine ⟨rfl, fun l hl => ?_⟩
  rw [get?_eraseBelow, if_neg fun hs => hl hs.1]

lemma eraseTree_eraseBelow (fs : FileSystem) {loc : Location} (h : loc ≠ []) :
    (fs.eraseBelow loc).eraseTree loc = fs.eraseTree loc := by
  refine eq_of_get? ?_ fun l => ?_
  · rw [(agrees_eraseTree _ h).workDir, (agrees_eraseTree fs h).workDir]
    rfl
  · rw [get?_eraseTree _ loc l h, get?_eraseTree fs loc l h]
    by_cases hl : loc <:+ l
    · rw [if_pos hl, if_pos hl]
    · rw [if_neg hl, if_neg hl, (agrees_eraseBelow fs loc).get? l hl]

end

end FileSystem

namespace Store

open Attempt FileAction FileSystem Walk

def Seat (home : Home) (fs : FileSystem) (T : Location) : Prop :=
  fs.Anchored home.templates T ∨ fs.Missing home.templates T

/-- The source is a directory and no link to one. It is neither among the templates nor around
them. -/
structure Offers (home : Home) (fs : FileSystem) (source : Path) (S : Location) (f : Forest) :
    Prop where
  entry : fs.find .entry source = .ok (.there S .directory)
  holds : fs.Holds S (.directory f)
  sorted : f.Sorted
  apart : ∀ T, Seat home fs T → ¬ T <:+ S ∧ ¬ S <:+ T

structure Free (home : Home) (fs : FileSystem) (dest : Path) : Prop where
  absent : fs.Absent dest
  entries : ∀ n ∈ dest.names, n.1 ≠ ".." → isEntryName n.1 = true
  apart : ∀ T D, fs.Anchored home.templates T → fs.Missing dest D → ¬ T <:+ D

def stock (home : Home) (n : Name) (source : Path) : FileAction Path := do
  makeDirectories home.templates
  Template.create source (home.templates.child n)
  pure (home.templates.child n)

/-- The tree has come to be under the name. If there was a failure, nothing is there or what had
been copied by then. -/
def Stocked (kept : FileSystem → Shelf → Prop) (shelf : Shelf) (name : String) (p : Pair)
    (f : Forest) (r : Except Failure Path × FileSystem) : Prop :=
  ∃ x, kept r.2 (Function.update shelf name x) ∧
    match r.1 with
    | .ok _ => x = some f
    | .error _ => ∀ g, x = some g → f.CutShort p g

lemma Stocked.imp {kept kept' : FileSystem → Shelf → Prop} {shelf : Shelf} {name : String}
    {p : Pair} {f : Forest} {r : Except Failure Path × FileSystem}
    (h : Stocked kept shelf name p f r) (hk : ∀ fs shelf, kept fs shelf → kept' fs shelf) :
    Stocked kept' shelf name p f r := by
  obtain ⟨x, hx, hf⟩ := h
  exact ⟨x, hk _ _ hx, hf⟩

section

variable {home : Home} {fs fs' : FileSystem} {T S : Location} {shelf : Shelf} {name : String}
  {n : Name} {f : Forest} {source dest : Path} {overwrite : Bool}

lemma removeTree_of_there {p : Path} {l : Location} (hl : l ≠ [])
    (hfind : fs.find .entry p = .ok (.there l .directory))
    (hleft : (fs.eraseBelow l).find .entry p = .ok (.there l .directory)) :
    Store.removeTree p fs = (.ok (), fs.eraseTree l) := by
  have hentry : fs.entryAt p = .ok .directory := by rw [FileSystem.entryAt, hfind]
  have hempty : fs.emptyDirectory p = .ok (fs.eraseBelow l) := by rw [emptyDirectory, hfind]
  have hremove : (fs.eraseBelow l).removeTree p = .ok (fs.eraseTree l) := by
    rw [FileSystem.removeTree, hleft]
    exact congrArg Except.ok (eraseTree_eraseBelow fs hl)
  rw [Store.removeTree, bind_of_ok (ask_of_ok hentry)]
  exact (bind_of_ok (change_of_ok hempty) _).trans (change_of_ok hremove)

lemma Holding.removeTree (h : Holding home fs T shelf) (hn : Nameable home name n)
    (hk : (shelf name).isSome) :
    removeTree (home.templates.child n) fs = (.ok (), fs.eraseTree (n.1 :: T)) := by
  obtain ⟨f, hf⟩ := Option.isSome_iff_exists.mp hk
  have hplace := h.place hn
  have hget : fs.get? (n.1 :: T) = some .directory := by
    rw [h.get?_child, hn.val_eq, hf]
    rfl
  have hget' : (fs.eraseBelow (n.1 :: T)).get? (n.1 :: T) = some .directory := by
    rw [get?_eraseBelow, if_neg fun hne => hne.2 rfl, hget]
  refine removeTree_of_there (List.cons_ne_nil _ _) ?_ ?_
  · rw [hplace.find_entry, spotAt, hget]
  · rw [(hplace.agrees (agrees_eraseBelow fs _)).find_entry, spotAt, hget']

lemma Holding.without (h : Holding home fs T shelf) (hn : Nameable home name n) :
    Holding home (fs.eraseTree (n.1 :: T)) T (Function.update shelf name none) := by
  refine h.update hn (agrees_eraseTree fs (List.cons_ne_nil _ _)) (fun _ => ?_) (by simp)
  rw [get?_eraseTree _ _ _ (List.cons_ne_nil _ _), if_pos List.suffix_rfl]

lemma Offers.given (h : Offers home fs source S f) (hT : Seat home fs T) :
    fs.Source T source S f :=
  ⟨leads_of_entry h.entry, h.holds, h.sorted, (h.apart T hT).1, (h.apart T hT).2⟩

lemma Holding.stock (h : Holding home fs T shelf) (hn : Nameable home name n)
    (hfree : shelf name = none) (hsource : fs.find .entry source = .ok (.there S .directory))
    (s : fs.Source T source S f) :
    (f.Fits ⟨source, home.templates.child n⟩ → stock home n source fs =
      (.ok (home.templates.child n), f.writeTo (fs.openTo (n.1 :: T)) (n.1 :: T))) ∧
    Stocked (Holding home · T) shelf name ⟨source, home.templates.child n⟩ f
      (stock home n source fs) := by
  have hnone : fs.get? (n.1 :: T) = none := by
    rw [hn.val_eq]
    exact h.free name hfree
  have hmissing : fs.Missing (home.templates.child n) (n.1 :: T) :=
    .vacant ((h.place hn).find_entry.trans (by rw [spotAt, hnone]))
  have hout := (apart_child s.apart s.apart' n.1).2
  obtain ⟨hwhole, -, hbelow⟩ := copyTree_fresh hmissing hsource s.holds s.sorted hout
  have hstock : Store.stock home n source fs =
      (copyTree source (home.templates.child n) >>= fun _ =>
        pure (home.templates.child n)) fs := by
    rw [Store.stock, bind_of_ok (makeDirectories_of_leads h.anchored.leads)]
    rfl
  have hopen : fs.AgreesOutside (fs.openTo (n.1 :: T)) (n.1 :: T) := by
    rw [openTo, openTo_of_directory h.anchored.get?]
    exact agrees_set fs _ _
  have hagrees := hopen.trans hbelow.outside
  by_cases hfit : f.Fits ⟨source, home.templates.child n⟩
  · obtain ⟨hdone, hholds⟩ := hwhole hfit
    rw [hdone] at hagrees
    have hall := hstock.trans (bind_of_ok hdone _)
    refine ⟨fun _ => hall, ?_⟩
    rw [hall]
    refine ⟨some f, h.update hn hagrees (by simp) fun g hg => ?_, rfl⟩
    cases hg
    exact ⟨hholds, s.sorted⟩
  · obtain ⟨g, e, hcut, hdone, hholds⟩ :=
      copyTree_cutShort hmissing hsource s.holds s.sorted hout hfit
    rw [hdone] at hagrees
    have hall := hstock.trans (bind_of_error hdone _)
    refine ⟨fun hf => absurd hf hfit, ?_⟩
    rw [hall]
    refine ⟨some g, h.update hn hagrees (by simp) fun g' hg' => ?_, fun g' hg' => ?_⟩
    · cases hg'
      exact ⟨hholds, hcut.sorted s.sorted⟩
    · cases hg'
      exact hcut

lemma Holding.stock_lost (h : Holding home fs T shelf) (n : Name) {r : Refusal}
    (hsource : fs.entryAt source = .error r) :
    ∃ e, Store.stock home n source fs = (.error e, fs) := by
  obtain ⟨e, he⟩ := copyTree_of_lost hsource (home.templates.child n)
  refine ⟨e, ?_⟩
  rw [Store.stock, bind_of_ok (makeDirectories_of_leads h.anchored.leads)]
  exact bind_of_error he _

lemma Unmade.templates_absent (h : Unmade home fs) : fs.Absent home.templates := by
  obtain ⟨r, -, hfind⟩ := h.lost
  refine ⟨fun l e hl => ?_, fun n names hn hup => ?_⟩
  · cases (hfind .entry).symm.trans hl
  · rcases List.suffix_cons_iff.mp hn with heq | hn
    · obtain rfl := (List.cons.inj heq).1
      simp [Home.templatesName] at hup
    · exact h.absent.noUp n names hn hup

lemma Unmade.not_anchored (h : Unmade home fs) (T : Location) :
    ¬ fs.Anchored home.templates T := by
  intro hT
  obtain ⟨r, -, hr⟩ := h.lost
  cases (hr .target).symm.trans hT.leads

lemma Unmade.templates_entries (h : Unmade home fs) :
    ∀ n ∈ home.templates.names, n.1 ≠ ".." → isEntryName n.1 = true := by
  intro n hn hup
  rcases List.mem_cons.mp hn with rfl | hn
  · rfl
  · exact h.entries n hn hup

lemma holding_openTo (h : fs.Missing home.templates T) :
    Holding home (fs.openTo T) T fun _ => none :=
  ⟨h.anchored, fun _ _ hk => (by cases hk), fun k _ => h.opened.2.1.holds.get?_child k,
    fun _ _ hk => (by cases hk)⟩

lemma stock_openTo (h : fs.Missing home.templates T) (n : Name) (source : Path) :
    Store.stock home n source fs = Store.stock home n source (fs.openTo T) := by
  obtain ⟨hmake, -, hleads⟩ := h.opened
  rw [Store.stock, bind_of_ok hmake, bind_of_ok (makeDirectories_of_leads hleads)]

lemma Offers.stock_first (ho : Offers home fs source S f) (hT : fs.Missing home.templates T)
    (hn : Nameable home name n) :
    (f.Fits ⟨source, home.templates.child n⟩ → Store.stock home n source fs =
      (.ok (home.templates.child n),
        f.writeTo ((fs.openTo T).openTo (n.1 :: T)) (n.1 :: T))) ∧
    Stocked (Holding home · T) (fun _ => none) name ⟨source, home.templates.child n⟩ f
      (Store.stock home n source fs) := by
  obtain ⟨-, hopened, -⟩ := hT.opened
  have s := hopened.source (leads_of_entry ho.entry) ho.holds ho.sorted (ho.apart T (.inr hT)).2
  rw [stock_openTo hT]
  exact (holding_openTo hT).stock hn rfl (find_sees hopened.grows (.inl rfl) ho.entry) s

lemma Unmade.stock (h : Unmade home fs) (hn : Nameable home name n)
    (ho : Offers home fs source S f) :
    Stocked (Keeps home) (fun _ => none) name ⟨source, home.templates.child n⟩ f
      (Store.stock home n source fs) := by
  rcases h.templates_absent.missing_or_unchanged h.templates_entries with ⟨T, hT⟩ | ⟨hfails, hsame⟩
  · exact (ho.stock_first hT hn).2.imp fun _ _ h => .inr ⟨T, h⟩
  · obtain ⟨e, he⟩ := hfails
    have hall : Store.stock home n source fs = (.error e, fs) :=
      bind_of_error (Prod.ext he hsame) _
    rw [hall]
    exact ⟨none, .inl ⟨h, Function.update_eq_self name _⟩, by simp⟩

lemma create_of_free (hn : Nameable home name n)
    (h : fs.exists? (home.templates.child n) = .ok false) :
    Store.create home name source overwrite fs = Store.stock home n source fs := by
  rw [Store.create, hn.path_eq, settle_ok, bind_of_ok (pure_apply _ fs), bind_of_ok (ask_of_ok h)]
  rfl

lemma create_of_known (hn : Nameable home name n)
    (h : fs.exists? (home.templates.child n) = .ok true) :
    Store.create home name source false fs = (.error (.templateExists name), fs) := by
  rw [Store.create, hn.path_eq, settle_ok, bind_of_ok (pure_apply _ fs), bind_of_ok (ask_of_ok h)]
  rfl

lemma create_over (hn : Nameable home name n)
    (h : fs.exists? (home.templates.child n) = .ok true)
    (hr : Store.removeTree (home.templates.child n) fs = (.ok (), fs')) :
    Store.create home name source true fs = Store.stock home n source fs' := by
  rw [Store.create, hn.path_eq, settle_ok, bind_of_ok (pure_apply _ fs), bind_of_ok (ask_of_ok h)]
  exact bind_of_ok hr _

lemma source_without {k : String} (s : fs.Source T source S f)
    (hfind : (fs.eraseTree (k :: T)).find .entry source = .ok (.there S .directory)) :
    (fs.eraseTree (k :: T)).Source T source S f := by
  obtain ⟨hapart, hapart'⟩ := apart_child s.apart s.apart' k
  exact ⟨leads_of_entry hfind, s.holds.agrees (agrees_eraseTree fs (List.cons_ne_nil k T)) hapart
    hapart', s.sorted, s.apart, s.apart'⟩

lemma Holding.exists?_child (h : Holding home fs T shelf) (hn : Nameable home name n)
    (hk : (shelf name).isSome) : fs.exists? (home.templates.child n) = .ok true := by
  rw [FileSystem.exists?, h.ask_child hn rfl, hk]

lemma Holding.create_lost (h : Holding home fs T shelf) (hn : Nameable home name n)
    (hk : (shelf name).isSome) {r : Refusal}
    (hsource : (fs.eraseTree (n.1 :: T)).entryAt source = .error r) :
    ∃ e, Store.create home name source true fs = (.error e, fs.eraseTree (n.1 :: T)) := by
  rw [Store.create_over hn (h.exists?_child hn hk) (h.removeTree hn hk)]
  exact (h.without hn).stock_lost n hsource

lemma Holding.create_again (h : Holding home fs T shelf) (hn : Nameable home name n)
    (hk : (shelf name).isSome) (ho : Offers home fs source S f)
    (hsource : (fs.eraseTree (n.1 :: T)).find .entry source = .ok (.there S .directory)) :
    (f.Fits ⟨source, home.templates.child n⟩ →
      ∃ fs', Store.create home name source true fs = (.ok (home.templates.child n), fs')) ∧
    Stocked (Holding home · T) shelf name ⟨source, home.templates.child n⟩ f
      (Store.create home name source true fs) := by
  rw [Store.create_over hn (h.exists?_child hn hk) (h.removeTree hn hk)]
  have hfree : Function.update shelf name none name = none := Function.update_self name none shelf
  obtain ⟨hdone, x, hx, hf⟩ := (h.without hn).stock hn hfree hsource
    (source_without (ho.given (.inl h.anchored)) hsource)
  rw [Function.update_idem] at hx
  exact ⟨fun hfit => ⟨_, hdone hfit⟩, x, hx, hf⟩

lemma Holding.create_over (h : Holding home fs T shelf) (hn : Nameable home name n)
    (hk : (shelf name).isSome) (ho : Offers home fs source S f) :
    ((fs.eraseTree (n.1 :: T)).entryAt source = .ok .directory →
      f.Fits ⟨source, home.templates.child n⟩ →
      ∃ fs', Store.create home name source true fs = (.ok (home.templates.child n), fs')) ∧
    Stocked (Holding home · T) shelf name ⟨source, home.templates.child n⟩ f
      (Store.create home name source true fs) := by
  cases hentry : (fs.eraseTree (n.1 :: T)).entryAt source with
  | error r =>
    obtain ⟨e, he⟩ := h.create_lost hn hk hentry
    refine ⟨fun hd => absurd hd (by simp), ?_⟩
    rw [he]
    exact ⟨none, h.without hn, by simp⟩
  | ok d =>
    obtain ⟨l, hl⟩ := entryAt_eq_ok hentry
    have hsame := find_sees (eraseTree_extends fs (List.cons_ne_nil _ _)) (.inl rfl) hl
    rw [ho.entry] at hsame
    cases hsame
    obtain ⟨hdone, hall⟩ := h.create_again hn hk ho hl
    exact ⟨fun _ => hdone, hall⟩

lemma Keeps.exists?_child (h : Keeps home fs shelf) (hn : Nameable home name n) :
    fs.exists? (home.templates.child n) = .ok (shelf name).isSome :=
  h.ask_child hn rfl

lemma Keeps.create (h : Keeps home fs shelf) (hn : Nameable home name n)
    (ho : Offers home fs source S f) (hfree : overwrite = true ∨ shelf name = none) :
    Stocked (Keeps home) shelf name ⟨source, home.templates.child n⟩ f
      (Store.create home name source overwrite fs) := by
  have hexists := h.exists?_child hn
  rcases h with ⟨hno, rfl⟩ | ⟨T, h⟩
  · rw [create_of_free hn hexists]
    exact hno.stock hn ho
  · cases hk : shelf name with
    | none =>
      rw [hk] at hexists
      rw [create_of_free hn hexists]
      obtain ⟨-, hall⟩ := h.stock hn hk ho.entry (ho.given (.inl h.anchored))
      exact hall.imp fun _ _ h => .inr ⟨T, h⟩
    | some g =>
      obtain rfl : overwrite = true := hfree.resolve_right (by simp [hk])
      exact (h.create_over hn (by simp [hk]) ho).2.imp fun _ _ h => .inr ⟨T, h⟩

lemma Keeps.create_fits (h : Keeps home fs shelf) (hn : Nameable home name n)
    (ho : Offers home fs source S f) (hT : Seat home fs T)
    (hclear : shelf name = none ∨ overwrite = true ∧ ∀ T, fs.Anchored home.templates T →
      (fs.eraseTree (name :: T)).entryAt source = .ok .directory)
    (hfit : f.Fits ⟨source, home.templates.child n⟩) :
    ∃ fs', Store.create home name source overwrite fs =
      (.ok (home.templates.child n), fs') := by
  have hexists := h.exists?_child hn
  rcases h with ⟨hno, rfl⟩ | ⟨T', h⟩
  · rw [create_of_free hn hexists]
    rcases hT with hT | hT
    · exact absurd hT (hno.not_anchored T)
    · exact ⟨_, (ho.stock_first hT hn).1 hfit⟩
  · cases hk : shelf name with
    | none =>
      rw [hk] at hexists
      rw [create_of_free hn hexists]
      exact ⟨_, (h.stock hn hk ho.entry (ho.given (.inl h.anchored))).1 hfit⟩
    | some g =>
      obtain ⟨rfl, hstays⟩ := hclear.resolve_left (by simp [hk])
      refine (h.create_over hn (by simp [hk]) ho).1 ?_ hfit
      rw [hn.val_eq]
      exact hstays T' h.anchored

lemma Keeps.create_known (h : Keeps home fs shelf) (hn : Nameable home name n)
    (hk : (shelf name).isSome) :
    Store.create home name source false fs = (.error (.templateExists name), fs) :=
  create_of_known hn ((h.exists?_child hn).trans (congrArg Except.ok hk))

lemma Holding.keep_copy {D : Location} (h : Holding home fs T shelf) (hdest : fs.Missing dest D)
    (hout : ¬ T <:+ D) (hbelow : (fs.openTo D).ChangesBelow (copyTree source dest fs).2 D) :
    Holding home (copyTree source dest fs).2 T shelf := by
  obtain ⟨hgrows, -, hget⟩ := copyTree_adds hdest hbelow
  refine h.keep (h.anchored.extends hgrows) fun l hl => ?_
  rw [hget l, if_neg fun hs => hout (hl.trans hs)]
  intro hs
  rcases List.suffix_or_suffix_of_suffix hs hl with hs | hs
  · have hdir := get?_of_suffix h.anchored.get? hs
    rw [hdest.opened.2.1.missing] at hdir
    cases hdir
  · exact hout hs

def Copied (fs : FileSystem) (dest : Path) (f : Forest) (fs' : FileSystem) : Prop :=
  ∃ D, fs.Missing dest D ∧ fs' = f.writeTo (fs.openTo D) D ∧ fs'.Leads dest D ∧
    fs'.Holds D (.directory f)

lemma Holding.copy (h : Holding home fs T shelf) (hn : Nameable home name n)
    (hk : shelf name = some f) (hd : Free home fs dest) :
    ((∃ D, fs.Missing dest D) → f.Fits ⟨home.templates.child n, dest⟩ →
      ∃ fs', copyTree (home.templates.child n) dest fs = (.ok (), fs')) ∧
    (Fails (copyTree (home.templates.child n) dest fs) ∨
      Copied fs dest f (copyTree (home.templates.child n) dest fs).2) ∧
    Holding home (copyTree (home.templates.child n) dest fs).2 T shelf := by
  obtain ⟨hf, hs⟩ := h.full name f hk
  rw [← hn.val_eq] at hf
  have hfind : fs.find .entry (home.templates.child n) = .ok (.there (n.1 :: T) .directory) := by
    rw [(h.place hn).find_entry, spotAt, hf.get?_self]
    rfl
  have hcopy (D : Location) (hD : fs.Missing dest D) := by
    have hout := hd.apart T D h.anchored hD
    exact copyTree_fresh hD hfind hf hs fun hs => hout ((List.suffix_cons n.1 T).trans hs)
  refine ⟨?_, ?_⟩
  · rintro ⟨D, hD⟩ hfit
    exact ⟨_, ((hcopy D hD).1 hfit).1⟩
  rcases hd.absent.missing_or_unchanged hd.entries with ⟨D, hD⟩ | ⟨hfails, hsame⟩
  · obtain ⟨hwhole, hpart, hbelow⟩ := hcopy D hD
    refine ⟨?_, h.keep_copy hD (hd.apart T D h.anchored hD) hbelow⟩
    by_cases hfit : f.Fits ⟨home.templates.child n, dest⟩
    · obtain ⟨hdone, hholds⟩ := hwhole hfit
      have hleads := (copyTree_adds hD hbelow).2.1
      rw [hdone] at hleads ⊢
      exact .inr ⟨D, hD, rfl, hleads, hholds⟩
    · exact .inl (hpart hfit)
  · obtain ⟨hfails', hsame'⟩ := fails_copyTree hfind hfails
    refine ⟨.inl hfails', ?_⟩
    rw [hsame', hsame]
    exact h

lemma Keeps.holding (h : Keeps home fs shelf) (hk : shelf name = some f) :
    ∃ T, Holding home fs T shelf := by
  rcases h with ⟨-, rfl⟩ | h
  · cases hk
  · exact h

lemma Keeps.edit (h : Keeps home fs shelf) (hn : Nameable home name n) (hk : shelf name = some f)
    (hd : Free home fs dest) :
    ((∃ D, fs.Missing dest D) → f.Fits ⟨home.templates.child n, dest⟩ →
      ∃ fs', Store.edit home name dest fs = (.ok (), fs')) ∧
    (Fails (Store.edit home name dest fs) ∨
      Copied fs dest f (Store.edit home name dest fs).2) ∧
    Keeps home (Store.edit home name dest fs).2 shelf := by
  have hedit : Store.edit home name dest fs = copyTree (home.templates.child n) dest fs := by
    have hdir := h.directoryOf hn
    rw [hk] at hdir
    rw [Store.edit, bind_of_ok hdir]
  obtain ⟨T, h⟩ := h.holding hk
  obtain ⟨hdone, hall, hkeep⟩ := h.copy hn hk hd
  rw [hedit]
  exact ⟨hdone, hall, .inr ⟨T, hkeep⟩⟩

lemma Keeps.remove (h : Keeps home fs shelf) (hn : Nameable home name n)
    (hk : (shelf name).isSome) :
    ∃ fs', Store.remove home name fs = (.ok (), fs') ∧
      Keeps home fs' (Function.update shelf name none) := by
  have hdir := h.directoryOf hn
  rw [if_pos hk] at hdir
  obtain ⟨f, hf⟩ := Option.isSome_iff_exists.mp hk
  obtain ⟨T, h⟩ := h.holding hf
  refine ⟨fs.eraseTree (n.1 :: T), ?_, .inr ⟨T, h.without hn⟩⟩
  rw [Store.remove, bind_of_ok hdir, h.removeTree hn hk]

end

end Store

end Scaffold
