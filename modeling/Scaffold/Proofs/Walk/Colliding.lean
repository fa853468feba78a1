import Scaffold.Proofs.Walk.Repeating

/-! A walk is led astray only where a link of the template and one of its directories go to the same
place. -/

namespace Scaffold

namespace Walk

open Attempt FileAction FileSystem

def Brings (m : Manifest) (ctx : Context) (root dest : Path) (fs : FileSystem) (T : Location)
    (outs : List Name) (e : Entry) : Prop :=
  ∃ names action, Placed m ctx root dest fs names outs action ∧ fs.get? (under T names) = some e

def Strays {α : Type} (r : Except Stop α) (reason : Prop) (good : α → Prop) : Prop :=
  match r with
  | .ok a => good a
  | .error .failure => True
  | .error .astray => reason

/-- A link and a directory that go to one location. -/
def Collision (R : Location → Entry → Prop) : Prop :=
  ∃ l target, R l (.link target) ∧ R l .directory

def LinksFrom (R : Location → Entry → Prop) (loc : Location) (t : Tree) : Prop :=
  ∀ ks target, t.entryAt ks = some (.link target) → R (ks.reverse ++ loc) (.link target)

section

variable {α β : Type} {r : Except Stop α} {f : α → Except Stop β} {reason : Prop}
  {good : α → Prop} {R : Location → Entry → Prop} {loc : Location} {t : Tree} {g : Forest}
  {n : Name} {old : Option Tree}

lemma Stays.strays (h : Stays r good) (reason : Prop) : Strays r reason good := by
  rcases r with (_ | _) | a
  · trivial
  · cases h
  · exact h

lemma Strays.bind_eq {good' : β → Prop} (h : Strays r reason good)
    (hf : ∀ a, r = .ok a → good a → Strays (f a) reason good') :
    Strays (r >>= f) reason good' := by
  rcases r with (_ | _) | a
  · trivial
  · exact h
  · exact hf a rfl h

lemma linksFrom_leaf (ht : t.entry ≠ .directory)
    (h : ∀ target, t.entry = .link target → R loc (.link target)) : LinksFrom R loc t := by
  intro ks target hk
  cases ks with
  | nil =>
    rw [Tree.entryAt_nil, Option.some.injEq] at hk
    exact h target hk
  | cons k ks =>
    rw [Tree.entryAt_of_leaf ht] at hk
    cases hk

lemma linksFrom_nil (R : Location → Entry → Prop) (loc : Location) :
    LinksFrom R loc (.directory .nil) := by
  intro ks target hk
  cases ks <;> cases hk

lemma LinksFrom.child (h : LinksFrom R loc (.directory g)) {k : String} (ht : g.find? k = some t) :
    LinksFrom R (k :: loc) t := by
  intro ks target hk
  have hchild := h (k :: ks) target (by rw [Tree.entryAt, ht]; exact hk)
  rwa [List.reverse_cons, List.append_assoc] at hchild

lemma LinksFrom.put (h : LinksFrom R loc (.directory g)) (ht : LinksFrom R (n.1 :: loc) t) :
    LinksFrom R loc (.directory (g.put n t)) := by
  intro ks target hk
  cases ks with
  | nil => cases hk
  | cons k ks =>
    rw [Tree.entryAt, Forest.find?_put] at hk
    by_cases hkn : n.1 = k
    · subst hkn
      rw [if_pos rfl] at hk
      rw [List.reverse_cons, List.append_assoc]
      exact ht ks target hk
    · rw [if_neg hkn] at hk
      exact h (k :: ks) target hk

lemma overDirectory_strays (hold : ∀ u, old = some u → LinksFrom R loc u)
    (hdir : R loc .directory) :
    Strays (overDirectory old) (Collision R) fun g => LinksFrom R loc (.directory g) := by
  rcases old with _ | (_ | target | _ | g)
  · exact linksFrom_nil R loc
  · trivial
  · exact ⟨loc, target, hold _ rfl [] target rfl, hdir⟩
  · trivial
  · exact hold _ rfl

lemma overLeaf_strays (hleaf : t.entry ≠ .directory) (hhere : R loc t.entry) (p : Pair) :
    Strays (do
        p.check
        overLeaf old
        pure t) reason fun u => LinksFrom R loc u :=
  ((check_stays p).strays reason).bind_eq fun _ _ _ =>
    ((overLeaf_stays old).strays reason).bind_eq fun _ _ _ =>
      linksFrom_leaf hleaf fun _ ht => ht ▸ hhere

end

end Walk

open Walk FileSystem

section

variable {R : Location → Entry → Prop}

mutual

lemma Tree.copied_strays (t : Tree) (hs : t.Sorted) (p : Pair) {loc : Location} {old : Option Tree}
    (hold : ∀ u, old = some u → LinksFrom R loc u)
    (hbrings : ∀ ks e, t.entryAt ks = some e → R (ks.reverse ++ loc) e) :
    Strays (t.copied p old) (Collision R) (LinksFrom R loc) := by
  cases t with
  | pipe => trivial
  | file bytes mode => exact overLeaf_strays (t := .file bytes mode) nofun (hbrings [] _ rfl) p
  | link target => exact overLeaf_strays (t := .link target) nofun (hbrings [] _ rfl) p
  | directory f =>
    refine ((check_stays p).strays _).bind_eq fun _ _ _ => ?_
    refine (overDirectory_strays hold (hbrings [] _ rfl)).bind_eq fun acc _ hacc => ?_
    refine (Forest.copied_strays f hs p hacc fun k u hu ks e he => ?_).bind_eq fun _ _ hg => hg
    have hbelow := hbrings (k :: ks) e (by rw [Tree.entryAt, hu]; exact he)
    rwa [List.reverse_cons, List.append_assoc] at hbelow

lemma Forest.copied_strays (f : Forest) (hs : f.Sorted) (p : Pair) {loc : Location} {acc : Forest}
    (hacc : LinksFrom R loc (.directory acc))
    (hbrings : ∀ k t, f.find? k = some t →
      ∀ ks e, t.entryAt ks = some e → R (ks.reverse ++ k :: loc) e) :
    Strays (f.copied p acc) (Collision R) fun g => LinksFrom R loc (.directory g) := by
  cases f with
  | nil => exact hacc
  | cons n t rest =>
    refine (Tree.copied_strays t hs.2.1 _ (fun u hu => hacc.child hu)
      (hbrings n.1 t (Forest.find?_cons_self n t rest))).bind_eq fun u _ hu => ?_
    exact Forest.copied_strays rest hs.2.2 p (hacc.put hu) fun k v hv =>
      hbrings k v (hs.find?_rest hv)

end

end

namespace Walk

section

variable {m : Manifest} {ctx : Context} {root dest : Path} {fs : FileSystem} {T D loc : Location}
  {above outs : List Name} {n k : Name} {action : Action} {t : Tree}

def Brought (m : Manifest) (ctx : Context) (root dest : Path) (fs : FileSystem) (T D l : Location)
    (e : Entry) : Prop :=
  ∃ outs, l = under D outs ∧ Brings m ctx root dest fs T outs e

lemma exists_names {t : Tree} {ks : List String} {e : Entry} (h : t.entryAt ks = some e) :
    ∃ ns : List Name, ns.map Subtype.val = ks := by
  induction ks generalizing t with
  | nil => exact ⟨[], rfl⟩
  | cons k ks ih =>
    cases t with
    | file | link | pipe => cases h
    | directory f =>
      obtain ⟨u, hu, he⟩ := Option.bind_eq_some_iff.mp h
      obtain ⟨ns, rfl⟩ := ih he
      obtain ⟨n, -, rfl⟩ := (f.find?_isSome_iff k).mp (by rw [hu]; rfl)
      exact ⟨n :: ns, rfl⟩

lemma placed_below (h : Placed m ctx root dest fs above outs .copy) (ns : List Name) :
    Placed m ctx root dest fs (ns ++ above) (ns ++ outs) .copy := by
  induction ns with
  | nil => exact h
  | cons n ns ih => exact .verbatim ih

lemma brought_of_placed (h : Placed m ctx root dest fs above outs action)
    (hf : fs.Holds (under T above) t) (hcopy : t.entry = .directory → action = .copy)
    (ks : List String) (e : Entry) (he : t.entryAt ks = some e) :
    Brought m ctx root dest fs T D (ks.reverse ++ under D outs) e := by
  have hget := (hf ks).trans he
  by_cases hdir : t.entry = .directory
  · obtain rfl := hcopy hdir
    obtain ⟨ns, rfl⟩ := exists_names he
    have hnames (loc : Location) (names : List Name) :
        (ns.map Subtype.val).reverse ++ under loc names = under loc (ns.reverse ++ names) := by
      rw [under, under, List.map_append, List.append_assoc, List.map_reverse]
    rw [hnames] at hget ⊢
    exact ⟨_, rfl, _, _, placed_below h ns.reverse, hget⟩
  · cases ks with
    | nil => exact ⟨outs, rfl, above, action, h, hget⟩
    | cons k ks =>
      rw [Tree.entryAt_of_leaf hdir] at he
      cases he

end

end Walk

section

variable {m : Manifest} {ctx : Context} {root dest : Path} {fs : FileSystem} {T D : Location}

mutual

lemma Tree.made_strays (t : Tree) {see : Forest → FileSystem} {above outs : List Name} {n : Name}
    {sloc : Location} {acc f : Forest}
    (e : Enters m ctx root dest fs D see above outs (under D outs) sloc f acc)
    (ht : f.find? n.1 = some t) (hf : fs.Holds (under T above) (.directory f))
    (hcomes : ∀ q s, Comes (materializeVisit m ctx root)
      [⟨sourceAt root (n :: above), (sourceAt dest outs).child n⟩] (see acc) q s →
      Comes (materializeVisit m ctx root) [⟨root, dest⟩] fs q s)
    (hacc : LinksFrom (Brought m ctx root dest fs T D) (under D outs) (.directory acc)) :
    Strays (t.made m ctx root see above (sourceAt dest outs) n acc)
      (Collision (Brought m ctx root dest fs T D))
      fun g => LinksFrom (Brought m ctx root dest fs T D) (under D outs) (.directory g) := by
  have hhere := hcomes _ _ (.here _ [] _)
  rw [Tree.made]
  refine ((decision_stays m ctx root (see acc) n above).strays _).bind_eq fun chosen hdec _ => ?_
  rcases chosen with _ | ⟨action, k⟩
  · exact hacc
  obtain ⟨_, hparent, hopen⟩ := e.placed
  obtain ⟨hlisted, heff, hk⟩ :=
    effective_of_decision (e.source.isEntryName ht) (sourceAt dest outs) hdec
  have hplaced : Placed m ctx root dest fs (n :: above) (k :: outs) action :=
    .entry hparent hopen hhere hlisted heff
  have hold (u : Tree) (hu : acc.find? k.1 = some u) :
      LinksFrom (Brought m ctx root dest fs T D) (under D (k :: outs)) u := hacc.child hu
  have hcopied (hcopy : t.entry = .directory → action = .copy) :
      Strays (do
          let u ← t.copied ⟨sourceAt root (n :: above), (sourceAt dest outs).child k⟩
            (acc.find? k.1)
          pure (acc.put k u)) (Collision (Brought m ctx root dest fs T D))
        fun g => LinksFrom (Brought m ctx root dest fs T D) (under D outs) (.directory g) :=
    (t.copied_strays (e.source.sorted.find? ht) _ hold
      (brought_of_placed hplaced (hf.child ht) hcopy)).bind_eq fun _ _ hu => hacc.put hu
  cases t with
  | link | pipe => exact hcopied nofun
  | file bytes mode =>
    by_cases hmake : action = .make
    · simp only [hmake, if_true]
      refine ((check_stays _).strays _).bind_eq fun _ _ _ => ?_
      refine ((overLeaf_stays _).strays _).bind_eq fun _ _ _ => ?_
      exact ((filled_stays _ ctx bytes).strays _).bind_eq fun content _ _ =>
        hacc.put (linksFrom_leaf nofun nofun)
    · simp only [if_neg hmake]
      exact hcopied nofun
  | directory g =>
    by_cases hcopy : action = .copy
    · simp only [if_pos hcopy]
      exact hcopied fun _ => hcopy
    · simp only [if_neg hcopy]
      refine ((check_stays _).strays _).bind_eq fun _ hcheck _ => ?_
      have hdir : Brought m ctx root dest fs T D (under D (k :: outs)) .directory :=
        ⟨_, rfl, _, _, hplaced, (hf.child ht).get?_self⟩
      refine (overDirectory_strays hold hdir).bind_eq fun inside hin hlinks => ?_
      have hfits := fits_of_check hcheck
      obtain ⟨hproper, hopens⟩ := materializeVisit_opens e.window e.source e.proper ht hfits.1 hk
        hfits.2 hin hlisted heff hcopy
      refine (Forest.made_strays g (e.child hproper ht hk hfits hplaced hcopy)
        (e.source.sorted.find? ht) (fun _ _ h => h) (hf.child ht)
        (fun q s h => hcomes q s (.next hopens (by rwa [List.append_nil]))) hlinks).bind_eq
        fun _ _ hg => hacc.put hg

lemma Forest.made_strays (g : Forest) {see : Forest → FileSystem} {above outs : List Name}
    {sloc : Location} {acc f : Forest}
    (e : Enters m ctx root dest fs D see above outs (under D outs) sloc f acc)
    (hg : g.Sorted) (hsub : ∀ k t, g.find? k = some t → f.find? k = some t)
    (hf : fs.Holds (under T above) (.directory f))
    (hcomes : ∀ q s, Comes (materializeVisit m ctx root)
      (g.names.map (Pair.child ⟨sourceAt root above, sourceAt dest outs⟩ (sourceAt dest outs)))
      (see acc) q s → Comes (materializeVisit m ctx root) [⟨root, dest⟩] fs q s)
    (hacc : LinksFrom (Brought m ctx root dest fs T D) (under D outs) (.directory acc)) :
    Strays (g.made m ctx root see above (sourceAt dest outs) acc)
      (Collision (Brought m ctx root dest fs T D))
      fun g => LinksFrom (Brought m ctx root dest fs T D) (under D outs) (.directory g) := by
  cases g with
  | nil => exact hacc
  | cons n t rest =>
    have ht : f.find? n.1 = some t := hsub n.1 t (Forest.find?_cons_self n t rest)
    refine (Tree.made_strays t e ht hf (fun q s h => hcomes q s (comes_append h)) hacc).bind_eq
      fun acc' hfirst hlinks => ?_
    have hrun := t.made_performs m ctx root e.window e.source e.proper ht
    rw [hfirst] at hrun
    have e' : Enters m ctx root dest fs D see above outs (under D outs) sloc f acc' :=
      { e with proper := hrun.1 }
    exact Forest.made_strays rest e' hg.2.2 (fun k u hu => hsub k u (hg.find?_rest hu)) hf
      (fun q s h => hcomes q s (comes_append_of_run (materializeVisit_orderly m ctx root)
        ((hrun.2 []).trans (run_nil _ _)) h)) hlinks

end

end

namespace Walk

/-- Where the recursion is led astray, the template has a link and a directory that go to the same
place. -/
lemma made_astray {m : Manifest} {ctx : Context} {root dest : Path} {fs : FileSystem}
    {T D : Location} {f : Forest} {see : Forest → FileSystem} (w : Window see dest D)
    (s : Source (see .nil) D root T f) (hf : fs.Holds T (.directory f))
    (hvisit : materializeVisit m ctx root ⟨root, dest⟩ fs = (.ok (dest, f.names), see .nil))
    (hastray : f.made m ctx root see [] dest .nil = .error .astray) :
    ∃ outs target, Brings m ctx root dest fs T outs (.link target) ∧
      Brings m ctx root dest fs T outs .directory := by
  have e : Enters m ctx root dest fs D see [] [] (under D []) T f .nil :=
    ⟨w, s, trivial, List.suffix_rfl, .auto, .root, by simp⟩
  have hstrays : Strays (f.made m ctx root see [] dest .nil)
      (Collision (Brought m ctx root dest fs T D))
      fun g => LinksFrom (Brought m ctx root dest fs T D) (under D []) (.directory g) :=
    f.made_strays e s.sorted (fun _ _ h => h) hf
      (fun q s h => .next hvisit (by rwa [List.append_nil])) (linksFrom_nil _ _)
  rw [hastray] at hstrays
  obtain ⟨l, target, ⟨outs, rfl, hlink⟩, outs', hsame, hdir⟩ := hstrays
  exact ⟨outs, target, hlink, under_injective hsame ▸ hdir⟩

end Walk

end Scaffold
