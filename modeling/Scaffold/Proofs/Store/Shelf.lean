import Scaffold.Proofs.Walk.CutShort
import Scaffold.Store

namespace Scaffold

namespace FileSystem

def Anchored (fs : FileSystem) (p : Path) (T : Location) : Prop :=
  (fs.eraseBelow T).Leads p T

section

variable {fs fs' : FileSystem} {p : Path} {T : Location}

lemma Anchored.leads (h : fs.Anchored p T) : fs.Leads p T :=
  Leads.extends h (eraseBelow_extends fs T)

lemma Anchored.get? (h : fs.Anchored p T) : fs.get? T = some .directory :=
  h.leads.get?

lemma Anchored.changes (h : fs.Anchored p T) (hc : fs.ChangesBelow fs' T) : fs'.Anchored p T := by
  have he : fs.eraseBelow T = fs'.eraseBelow T := by
    refine eq_of_get? hc.workDir.symm fun l => ?_
    rw [get?_eraseBelow, get?_eraseBelow]
    by_cases hl : T <:+ l ∧ l ≠ T
    · rw [if_pos hl, if_pos hl]
    · rw [if_neg hl, if_neg hl, hc.get? l hl]
  rw [Anchored, ← he]
  exact h

lemma Anchored.extends (h : fs.Anchored p T) (he : fs.Extends fs') : fs'.Anchored p T := by
  refine Leads.extends h ⟨he.workDir, fun {l e} hl => ?_⟩
  rw [get?_eraseBelow] at hl ⊢
  split_ifs at hl ⊢ with hs
  exact he.get? hl

lemma Missing.anchored (h : fs.Missing p T) : (fs.openTo T).Anchored p T := by
  obtain ⟨-, ho, hleads⟩ := h.opened
  refine hleads.extends ⟨rfl, fun {l e} hl => ?_⟩
  rw [get?_eraseBelow, if_neg, hl]
  exact fun hs => hs.2 (ho.holds.eq_of_nil hs.1 hl)

end

end FileSystem

abbrev Shelf := String → Option Forest

namespace Store

open Attempt FileAction FileSystem

/-- The directory of templates is at the location, and the trees on the shelf are all that is in
it. -/
structure Holding (home : Home) (fs : FileSystem) (T : Location) (shelf : Shelf) : Prop where
  anchored : fs.Anchored home.templates T
  full : ∀ k f, shelf k = some f → fs.Holds (k :: T) (.directory f) ∧ f.Sorted
  free : ∀ k, shelf k = none → fs.get? (k :: T) = none
  valid : ∀ k f, shelf k = some f → ∃ n, Home.templateName? k = some n ∧
    (home.templates.child n).byteLength ≤ pathLimit

structure Unmade (home : Home) (fs : FileSystem) : Prop where
  absent : fs.Absent home.root
  missing : fs.exists? home.root = .ok false
  entries : ∀ n ∈ home.root.names, n.1 ≠ ".." → isEntryName n.1 = true
  fits : home.templates.byteLength ≤ pathLimit

def Keeps (home : Home) (fs : FileSystem) (shelf : Shelf) : Prop :=
  Unmade home fs ∧ (shelf = fun _ => none) ∨ ∃ T, Holding home fs T shelf

structure Nameable (home : Home) (name : String) (n : Name) : Prop where
  template : Home.templateName? name = some n
  entry : isEntryName n.1 = true
  fits : (home.templates.child n).byteLength ≤ pathLimit

section

variable {home : Home} {fs fs' : FileSystem} {T : Location} {shelf : Shelf} {name : String}
  {n : Name} {f : Forest}

lemma templateName?_eq_some (h : Home.templateName? name = some n) : n.1 = name := by
  rw [Home.templateName?] at h
  split_ifs at h
  rw [Name.ofString?] at h
  split_ifs at h
  cases h
  rfl

lemma Nameable.val_eq (h : Nameable home name n) : n.1 = name :=
  templateName?_eq_some h.template

lemma path_of_templateName? (h : Home.templateName? name = some n) :
    path home name = .ok (home.templates.child n) := by
  rw [path, Home.templateDirectory, h]

lemma Nameable.path_eq (h : Nameable home name n) :
    path home name = .ok (home.templates.child n) :=
  path_of_templateName? h.template

lemma Holding.nameable (h : Holding home fs T shelf) (hk : shelf name = some f) :
    ∃ n, Nameable home name n := by
  obtain ⟨n, hn, hl⟩ := h.valid name f hk
  refine ⟨n, hn, ?_, hl⟩
  rw [templateName?_eq_some hn]
  exact (get?_parent (h.full name f hk).1.get?_self).1

lemma Holding.keep (h : Holding home fs T shelf) (ha : fs'.Anchored home.templates T)
    (hT : ∀ l, T <:+ l → fs'.get? l = fs.get? l) : Holding home fs' T shelf := by
  refine ⟨ha, fun k f hk => ⟨fun ks => ?_, (h.full k f hk).2⟩, fun k hk => ?_, h.valid⟩
  · rw [hT _ ((List.suffix_cons k T).trans (List.suffix_append _ _))]
    exact (h.full k f hk).1 ks
  · rw [hT _ (List.suffix_cons k T)]
    exact h.free k hk

lemma Holding.update (h : Holding home fs T shelf) (hn : Nameable home name n)
    (ha : fs.AgreesOutside fs' (n.1 :: T)) {x : Option Forest}
    (hnone : x = none → fs'.get? (n.1 :: T) = none)
    (hsome : ∀ f, x = some f → fs'.Holds (n.1 :: T) (.directory f) ∧ f.Sorted) :
    Holding home fs' T (Function.update shelf name x) := by
  have hname := hn.val_eq
  refine ⟨h.anchored.changes ha.below, fun k f hk => ?_, fun k hk => ?_, fun k f hk => ?_⟩
  · by_cases he : k = name
    · subst he
      rw [Function.update_self] at hk
      exact hname ▸ hsome f hk
    · rw [Function.update_of_ne he] at hk
      obtain ⟨hf, hs⟩ := h.full k f hk
      refine ⟨hf.agrees ha ?_ ?_, hs⟩
      · exact not_suffix_sibling (fun hk => he (hk.symm.trans hname)) []
      · exact not_suffix_sibling (fun hk => he (hk.trans hname)) []
  · by_cases he : k = name
    · subst he
      rw [Function.update_self] at hk
      exact hname ▸ hnone hk
    · rw [Function.update_of_ne he] at hk
      have hk' := ha.get? _ (not_suffix_sibling (fun hk => he (hk.symm.trans hname)) [])
      exact hk'.trans (h.free k hk)
  · by_cases he : k = name
    · subst he
      exact ⟨n, hn.template, hn.fits⟩
    · rw [Function.update_of_ne he] at hk
      exact h.valid k f hk

lemma Holding.place (h : Holding home fs T shelf) (hn : Nameable home name n) :
    fs.Place (home.templates.child n) (n.1 :: T) :=
  ⟨(canHold_iff _ _ _).mpr ⟨hn.entry, h.anchored.get?⟩,
    fun _ ha => (h.anchored.changes ha.below).leads.denotes hn.entry hn.fits⟩

lemma Holding.get?_child (h : Holding home fs T shelf) (k : String) :
    fs.get? (k :: T) = (shelf k).map fun _ => .directory := by
  cases hk : shelf k with
  | none => exact h.free k hk
  | some f => exact (h.full k f hk).1.get?_self

lemma Holding.ask_child (h : Holding home fs T shelf) (hn : Nameable home name n)
    {question : Entry → Bool} (hq : question .directory = true) :
    FileSystem.ask (fs.targetAt (home.templates.child n)) question =
      .ok (shelf name).isSome := by
  have hget := h.get?_child n.1
  have hlink : ∀ target, fs.get? (n.1 :: T) ≠ some (.link target) := fun target hl => by
    cases hs : shelf n.1 <;> simp [hget, hs] at hl
  have hden := (h.place hn).denotes fs (.refl fs _)
  rw [hden.ask_targetAt hlink, hget, hn.val_eq]
  cases shelf name with
  | none => rfl
  | some f => exact congrArg Except.ok hq

lemma Unmade.lost (h : Unmade home fs) :
    ∃ r, r.meansAbsent = true ∧ ∀ q, fs.find q home.templates = .error r := by
  obtain ⟨r, hr, hlost⟩ := lost_of_not_exists h.missing
  exact find_child_of_lost hr hlost h.fits

lemma Unmade.ask_child (h : Unmade home fs) (hn : Nameable home name n)
    (question : Entry → Bool) :
    FileSystem.ask (fs.targetAt (home.templates.child n)) question = .ok false := by
  obtain ⟨r, hr, hfind⟩ := h.lost
  obtain ⟨r', hr', hchild⟩ := find_child_of_lost hr (congrArg lost? (hfind .target)) hn.fits
  exact ask_targetAt_of_lost hr' (hchild .target) question

lemma Keeps.ask_child (h : Keeps home fs shelf) (hn : Nameable home name n)
    {question : Entry → Bool} (hq : question .directory = true) :
    FileSystem.ask (fs.targetAt (home.templates.child n)) question =
      .ok (shelf name).isSome := by
  rcases h with ⟨hno, rfl⟩ | ⟨T, h⟩
  · exact hno.ask_child hn question
  · exact h.ask_child hn hq

lemma Keeps.exists? (h : Keeps home fs shelf) (hn : Nameable home name n) :
    exists? home name fs = (.ok (shelf name).isSome, fs) := by
  rw [Store.exists?, hn.path_eq, settle_ok, bind_of_ok (pure_apply _ fs)]
  exact ask_of_ok (h.ask_child hn rfl)

lemma Keeps.directoryOf (h : Keeps home fs shelf) (hn : Nameable home name n) :
    directoryOf home name fs = if (shelf name).isSome then (.ok (home.templates.child n), fs)
      else (.error (.noTemplate name), fs) := by
  rw [Store.directoryOf, hn.path_eq, settle_ok, bind_of_ok (pure_apply _ fs),
    bind_of_ok (ask_of_ok (h.ask_child hn rfl))]
  by_cases hs : (shelf name).isSome = true
  · rw [if_pos hs, if_pos hs]
    rfl
  · rw [if_neg hs, if_neg hs]
    rfl

lemma keepDirectories_of_asked {dir : Path} {ns : List Name} {answer : Name → Bool}
    (h : ∀ n ∈ ns, fs.isDirectory (dir.child n) = .ok (answer n)) :
    keepDirectories dir ns fs = (.ok ((ns.filter answer).map Subtype.val), fs) := by
  induction ns with
  | nil => rfl
  | cons n ns ih =>
    have hrest := ih fun m hm => h m (List.mem_cons_of_mem n hm)
    rw [keepDirectories, bind_of_ok (ask_of_ok (h n List.mem_cons_self)), bind_of_ok hrest]
    cases ha : answer n with
    | false => rw [List.filter_cons_of_neg (by simp [ha])]; rfl
    | true => rw [List.filter_cons_of_pos ha]; rfl

lemma list_of_leads {p : Path} (h : fs.Leads p T) :
    ∃ ns : List Name, fs.list p = .ok ns ∧ ns.map Subtype.val = fs.names T := by
  refine ⟨_, by rw [list, h], ?_⟩
  rw [List.map_map]
  exact List.attach_map_subtype_val (fs.names T)

lemma names_of_leads {ns : List Name} {answer : Name → Bool} (hleads : fs.Leads home.templates T)
    (hns : fs.list home.templates = .ok ns)
    (h : ∀ n ∈ ns, fs.isDirectory (home.templates.child n) = .ok (answer n)) :
    names home fs = (.ok ((ns.filter answer).map Subtype.val), fs) := by
  rw [Store.names, bind_of_ok (ask_of_ok hleads.isDirectory), if_pos rfl,
    bind_of_ok (ask_of_ok hns), keepDirectories_of_asked h]

lemma Holding.names (h : Holding home fs T shelf) : names home fs = (.ok (fs.names T), fs) := by
  have hleads := h.anchored.leads
  obtain ⟨ns, hns, hnames⟩ := list_of_leads hleads
  have hall : ∀ n ∈ ns, fs.isDirectory (home.templates.child n) = .ok true := by
    intro n hn
    have hmem : n.1 ∈ fs.names T := hnames ▸ List.mem_map_of_mem hn
    rw [fs.mem_names, h.get?_child, Option.isSome_map] at hmem
    obtain ⟨f, hf⟩ := Option.isSome_iff_exists.mp hmem
    obtain ⟨m, hm⟩ := h.nameable hf
    obtain rfl : m = n := Subtype.ext hm.val_eq
    rw [isDirectory, h.ask_child hm rfl, hf]
    rfl
  rw [names_of_leads hleads hns hall, List.filter_true, hnames]

lemma Keeps.names (h : Keeps home fs shelf) :
    ∃ ks, names home fs = (.ok ks, fs) ∧ ks.Pairwise (· < ·) ∧ ∀ k, k ∈ ks ↔ (shelf k).isSome := by
  rcases h with ⟨hno, rfl⟩ | ⟨T, h⟩
  · refine ⟨[], ?_, .nil, fun k => by simp⟩
    obtain ⟨r, hr, hfind⟩ := hno.lost
    have hdir : fs.isDirectory home.templates = .ok false :=
      ask_targetAt_of_lost hr (hfind .target) _
    rw [Store.names, bind_of_ok (ask_of_ok hdir), if_neg Bool.false_ne_true]
    rfl
  · refine ⟨fs.names T, h.names, fs.names_pairwise T, fun k => ?_⟩
    rw [fs.mem_names, h.get?_child, Option.isSome_map]

end

end Store

end Scaffold
