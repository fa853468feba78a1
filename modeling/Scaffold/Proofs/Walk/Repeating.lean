import Mathlib.Data.List.Perm.Subperm
import Scaffold.Proofs.Expr.Consulting
import Scaffold.Proofs.Walk.Materialized
import Scaffold.Proofs.Walk.Preserving

/-! Making a template once more where it has just been made changes nothing, unless two of its
entries go to one place or an expansion asks about what has been made. -/

namespace Scaffold

namespace FileSystem

/-- What the path leads to does not depend on what is in the directory at the location. -/
def Overlooks (fs : FileSystem) (p : Path) (loc : Location) : Prop :=
  ∀ fs', fs.ChangesBelow fs' loc → fs'.targetAt p = fs.targetAt p

section

variable {fs fs' : FileSystem} {p out : Path} {loc l : Location} {e : Entry}
  {see see' : Forest → FileSystem} {acc g : Forest} {n : Name} {t : Tree}

lemma Extends.size_le (h : fs.Extends fs') : fs.entries.size ≤ fs'.entries.size := by
  rw [← Std.ExtTreeMap.length_keys, ← Std.ExtTreeMap.length_keys]
  apply List.Subperm.length_le
  refine List.subperm_of_subset ?_ fun l hl => ?_
  · refine Std.ExtTreeMap.distinct_keys.imp fun hne he => hne ?_
    rw [he]
    exact Std.ReflCmp.compare_self
  · rw [Std.ExtTreeMap.mem_keys, Std.ExtTreeMap.mem_iff_isSome_getElem?] at hl ⊢
    obtain ⟨e, he⟩ := Option.isSome_iff_exists.mp hl
    exact Option.isSome_of_eq_some (h.get? he)

lemma overlooks_of_find (h : (fs.eraseBelow loc).find .target p = .ok (.there l e)) :
    fs.Overlooks p loc := by
  intro fs' hc
  have hext : (fs.eraseBelow loc).Extends fs' := by
    refine ⟨hc.workDir, fun {k d} hk => ?_⟩
    rw [get?_eraseBelow] at hk
    split_ifs at hk with hs
    rw [hc.get? k hs, hk]
  rw [targetAt, targetAt, hext.find h, (eraseBelow_extends fs loc).find h]

lemma Window.extends_put (w : Window see out loc) (hacc : acc.Proper)
    (hput : (acc.put n t).Proper) (hfree : acc.find? n.1 = none) :
    (see acc).Extends (see (acc.put n t)) := by
  apply extends_of_agrees (w.agrees_put hacc hput)
  rw [w.get?_child hacc, hfree]
  rfl

lemma Window.extends_put_put (w : Window see out loc) (w' : Window see' out loc)
    (hacc : acc.Proper) (hg : g.Proper) (hput : (acc.put n t).Proper) (hput' : (g.put n t).Proper)
    (h : (see acc).Extends (see' g)) : (see (acc.put n t)).Extends (see' (g.put n t)) := by
  have ha := w.agrees_put hacc hput
  have ha' := w'.agrees_put hg hput'
  refine ⟨ha'.workDir.trans (h.workDir.trans ha.workDir.symm), fun {l e} hl => ?_⟩
  by_cases hs : n.1 :: loc <:+ l
  · obtain ⟨ks, rfl⟩ := hs
    rw [← List.reverse_reverse ks] at hl ⊢
    exact (w'.holds_put hput' _).trans ((w.holds_put hput _).symm.trans hl)
  · rw [ha'.get? l hs]
    exact h.get? ((ha.get? l hs).symm.trans hl)

end

end FileSystem

namespace Walk

open Attempt FileAction FileSystem Scaffold.Expr

/-- The texts that are expanded while a template is made, each with the file system at that time:
the names of entries, and the contents of files, when what they go into is there and empty. -/
inductive Expands (m : Manifest) (ctx : Context) (root dest : Path) (fs : FileSystem) :
    FileSystem → List Char → Prop
  | name {above : List Name} {n : Name} {d : Path} {s : FileSystem} {rule : FileRule}
      (hcomes : Comes (materializeVisit m ctx root) [⟨root, dest⟩] fs
        ⟨sourceAt root (n :: above), d⟩ s)
      (hrule : m.lookup (Path.text ⟨.relative, n :: above⟩) = some rule)
      (ha : rule.action ≠ .ignore) : Expands m ctx root dest fs s rule.name.toList
  | content {above : List Name} {n : Name} {d q : Path} {s s' : FileSystem} {bytes : ByteArray}
      {mode : Nat} {text : String}
      (hcomes : Comes (materializeVisit m ctx root) [⟨root, dest⟩] fs
        ⟨sourceAt root (n :: above), d⟩ s)
      (heff : effective s ctx (m.lookup (Path.text ⟨.relative, n :: above⟩)) d =
        .ok (some (.make, q)))
      (hentry : s.entryAt (sourceAt root (n :: above)) = .ok (.file bytes mode))
      (hempty : (makeRoom q >>= fun _ => change (·.writeFile · ByteArray.empty) q) s = (.ok (), s'))
      (htext : Text.Utf8.decode bytes = .ok text) : Expands m ctx root dest fs s' text.toList

/-- No two entries of a directory of the template go to the same place, and no expansion asks about
what is in the destination. -/
structure Repeatable (m : Manifest) (ctx : Context) (root dest : Path) (fs : FileSystem)
    (D : Location) : Prop where
  apart : ∀ (n n' k : Name) (above outs : List Name) (a a' : Action),
    Placed m ctx root dest fs (n :: above) (k :: outs) a →
    Placed m ctx root dest fs (n' :: above) (k :: outs) a' → n = n'
  overlooks : ∀ s cs p, Expands m ctx root dest fs s cs → Consults s ctx cs p → s.Overlooks p D

section

variable {visit : Visit} {work rest : List Pair} {s s' t : FileSystem} {q : Pair}

lemma comes_append (h : Comes visit work s q t) : Comes visit (work ++ rest) s q t := by
  induction h with
  | here p tail s => exact .here p (tail ++ rest) s
  | next hv _ ih =>
    rw [List.append_assoc] at ih
    exact .next hv ih

lemma comes_append_of_run (ho : Orderly visit) (hrun : run visit work s = (.ok (), s'))
    (h : Comes visit rest s' q t) : Comes visit (work ++ rest) s q t := by
  induction work, s using run.induct visit with
  | case1 s =>
    rw [run_nil] at hrun
    cases hrun
    exact h
  | case2 s p tail f s₁ hv =>
    rw [run_of_error hv] at hrun
    cases hrun
  | case3 s p tail out names s₁ hv hlen ih =>
    rw [run_of_ok hv (ho.short hv)] at hrun
    have hq := ih hrun
    rw [List.append_assoc] at hq
    exact .next hv hq
  | case4 s p tail out names s₁ hv hlen ih => exact absurd (Path.length_lt (ho.short hv)) hlen

end

section

variable {α β : Type} {r : Except Stop α} {f : α → Except Stop β} {good good' : α → Prop}

lemma Stays.bind_eq {good' : β → Prop} (h : Stays r good)
    (hf : ∀ a, r = .ok a → good a → Stays (f a) good') : Stays (r >>= f) good' := by
  cases r with
  | error stop => exact h
  | ok a => exact hf a rfl h

lemma Stays.imp_eq (h : Stays r good) (hg : ∀ a, r = .ok a → good a → good' a) :
    Stays r good' := by
  cases r with
  | error stop => exact h
  | ok a => exact hg a rfl h

end

section

variable {m : Manifest} {ctx : Context} {root : Path} {s s' : FileSystem} {D : Location} {n : Name}
  {above : List Name}

lemma expandString_again {text x : String}
    (hover : ∀ p, Consults s ctx text.toList p → s.Overlooks p D) (hbelow : s.ChangesBelow s' D)
    (hsize : s.entries.size ≤ s'.entries.size) (h : expandString s ctx text = .ok x) :
    expandString s' ctx text = .ok x := by
  have hlasts := expand_lasts (fun p hp => hover p hp s' hbelow) hsize
  rw [expandString] at h ⊢
  cases hr : (expand s ctx text.toList).result with
  | error f =>
    rw [hr] at h
    cases h
  | ok a => rwa [hlasts (.inr ⟨a, hr⟩)]

lemma decision_again {chosen : Option (Action × Name)}
    (hagain : ∀ rule x, m.lookup (Path.text ⟨.relative, n :: above⟩) = some rule →
      rule.action ≠ .ignore → expandString s ctx rule.name = .ok x →
      expandString s' ctx rule.name = .ok x)
    (h : decision m ctx root s n above = .ok chosen) :
    decision m ctx root s' n above = .ok chosen := by
  rw [decision] at h ⊢
  split_ifs at h ⊢ with hlen hlisted
  · exact h
  · cases hrule : m.lookup (Path.text ⟨.relative, n :: above⟩) with
    | none =>
      rw [hrule] at h
      exact h
    | some rule =>
      rw [hrule] at h
      rw [naming] at h ⊢
      split_ifs at h ⊢ with hignore hname
      · exact h
      · exact h
      · cases hx : expandString s ctx rule.name with
        | error f =>
          rw [hx] at h
          cases h
        | ok x =>
          rw [hx] at h
          rwa [hagain rule x hrule hignore hx]

lemma effective_of_decision {a : Action} {k : Name} (hn : isEntryName n.1 = true) (out : Path)
    (h : decision m ctx root s n above = .ok (some (a, k))) :
    ¬ (m.lookup (Path.text ⟨.relative, n :: above⟩) = none ∧
      Path.text ⟨.relative, n :: above⟩ = Manifest.fileName) ∧
    effective s ctx (m.lookup (Path.text ⟨.relative, n :: above⟩)) (out.child n) =
      .ok (some (a, out.child k)) ∧ isEntryName k.1 = true := by
  rw [decision] at h
  split_ifs at h with hlen hlisted
  · cases h
  · have hfollows := naming_follows s ctx out hn (m.lookup (Path.text ⟨.relative, n :: above⟩))
    rw [h] at hfollows
    exact ⟨hlisted, hfollows.1, hfollows.2 _ rfl⟩

lemma filled_again {bytes content : ByteArray}
    (hagain : ∀ text x, Text.Utf8.decode bytes = .ok text → expandString s ctx text = .ok x →
      expandString s' ctx text = .ok x)
    (h : filled s ctx bytes = .ok content) : filled s' ctx bytes = .ok content := by
  rw [filled, expandBytes] at h ⊢
  cases htext : Text.Utf8.decode bytes with
  | error f =>
    rw [htext] at h
    cases h
  | ok text =>
    rw [htext] at h
    dsimp only at h ⊢
    cases hx : expandString s ctx text with
    | error f =>
      rw [hx] at h
      cases h
    | ok x =>
      rw [hx] at h
      rwa [hagain text x htext hx]

end

end Walk

open Walk FileSystem Attempt FileAction Scaffold.Expr

mutual

lemma Tree.copied_again (t : Tree) (hs : t.Sorted) (p : Pair) :
    Stays (t.copied p none) fun u => t.copied p (some u) = .ok u := by
  cases t with
  | pipe => rfl
  | file | link =>
    refine (check_stays p).bind_eq fun _ hcheck _ => ?_
    show _ = _
    rw [Tree.copied, hcheck]
    rfl
  | directory f =>
    refine (check_stays p).bind_eq fun _ hcheck _ => ?_
    have hinside : Stays (overDirectory none) (· = .nil) := rfl
    refine hinside.bind_eq fun _ _ hnil => ?_
    subst hnil
    refine (Forest.copied_again f hs p fun _ _ => rfl).bind_eq fun g _ hg => ?_
    show _ = _
    rw [Tree.copied, hcheck]
    exact congrArg (· >>= fun g => pure (Tree.directory g)) (hg.2 g fun _ _ => rfl)

lemma Forest.copied_again (f : Forest) (hs : f.Sorted) (p : Pair) {acc : Forest}
    (hfree : ∀ n ∈ f.names, acc.find? n.1 = none) :
    Stays (f.copied p acc) fun g => (∀ k, k ∉ f.names → g.find? k.1 = acc.find? k.1) ∧
      ∀ g', (∀ n ∈ f.names, g'.find? n.1 = g.find? n.1) → f.copied p g' = .ok g' := by
  cases f with
  | nil => exact ⟨fun _ _ => rfl, fun _ _ => rfl⟩
  | cons n t rest =>
    rw [Forest.copied, hfree n List.mem_cons_self]
    refine (t.copied_again hs.2.1 _).bind_eq fun u _ hu => ?_
    have hput {m : Name} (hm : m ≠ n) : (acc.put n u).find? m.1 = acc.find? m.1 := by
      rw [Forest.find?_put, if_neg fun he => hm (Subtype.ext he.symm)]
    have hfree' (m : Name) (hm : m ∈ rest.names) : (acc.put n u).find? m.1 = none := by
      rw [hput fun he => hs.not_mem (he ▸ hm), hfree m (List.mem_cons_of_mem n hm)]
    refine (Forest.copied_again rest hs.2.2 p hfree').imp_eq fun g _ hg => ⟨?_, fun g' hg' => ?_⟩
    · intro k hk
      rw [Forest.names, List.mem_cons, not_or] at hk
      rw [hg.1 k hk.2, hput hk.1]
    · have hfirst : g'.find? n.1 = some u := by
        rw [hg' n List.mem_cons_self, hg.1 n hs.not_mem, Forest.find?_put, if_pos rfl]
      have hrest := hg.2 g' fun m hm => hg' m (List.mem_cons_of_mem n hm)
      rw [Forest.copied, hfirst, hu]
      show rest.copied p (g'.put n u) = _
      rw [Forest.put_of_find? hfirst, hrest]

end

namespace Walk

structure Enters (m : Manifest) (ctx : Context) (root dest : Path) (fs : FileSystem) (D : Location)
    (see : Forest → FileSystem) (above outs : List Name) (loc sloc : Location) (f acc : Forest) :
    Prop where
  window : Window see (sourceAt dest outs) loc
  source : Source (see .nil) loc (sourceAt root above) sloc f
  proper : acc.Proper
  inside : D <:+ loc
  placed : ∃ action, Placed m ctx root dest fs above outs action ∧ action ≠ .copy

def Goes (m : Manifest) (ctx : Context) (root dest : Path) (fs : FileSystem)
    (above outs : List Name) (n k : Name) : Prop :=
  ∃ a, Placed m ctx root dest fs (n :: above) (k :: outs) a

structure Later (goes : Name → Prop) (out : Path) (loc D : Location) (fs : FileSystem)
    (acc : Forest) (see : Forest → FileSystem) (g : Forest) : Prop where
  window : Window see out loc
  proper : g.Proper
  grows : fs.Extends (see g)
  below : fs.ChangesBelow (see g) D
  same : ∀ k, goes k → g.find? k.1 = acc.find? k.1

structure Repeats (goes : Name → Prop) (see : Forest → FileSystem) (out : Path)
    (loc D : Location) (acc acc₁ : Forest)
    (redo : (Forest → FileSystem) → Forest → Except Stop Forest) : Prop where
  kept : ∀ k, ¬ goes k → acc₁.find? k.1 = acc.find? k.1
  grows : (see acc).Extends (see acc₁)
  again : ∀ see' g, Later goes out loc D (see acc₁) acc₁ see' g → redo see' g = .ok g

section

variable {goes goes' : Name → Prop} {see : Forest → FileSystem} {out : Path} {loc D : Location}
  {acc acc₁ acc₂ : Forest} {redo redo' : (Forest → FileSystem) → Forest → Except Stop Forest}
  {k : Name} {u : Tree}

lemma repeats_refl (goes : Name → Prop) (see : Forest → FileSystem) (out : Path)
    (loc D : Location) (acc : Forest) :
    Repeats goes see out loc D acc acc fun _ g => .ok g :=
  ⟨fun _ _ => rfl, .refl _, fun _ _ _ => rfl⟩

lemma repeats_put (w : Window see out loc) (hacc : acc.Proper) (hput : (acc.put k u).Proper)
    (hgoes : goes k) (hfree : acc.find? k.1 = none)
    (hredo : ∀ see' g, Later goes out loc D (see (acc.put k u)) (acc.put k u) see' g →
      g.find? k.1 = some u → redo see' g = .ok (g.put k u)) :
    Repeats goes see out loc D acc (acc.put k u) redo where
  kept k' hk' := by
    rw [Forest.find?_put, if_neg]
    exact fun he => hk' (Subtype.ext he ▸ hgoes)
  grows := w.extends_put hacc hput hfree
  again see' g h := by
    have hthere : g.find? k.1 = some u := by
      rw [h.same k hgoes, Forest.find?_put, if_pos rfl]
    rw [hredo see' g h hthere, Forest.put_of_find? hthere]

lemma Repeats.bind (h : Repeats goes see out loc D acc acc₁ redo)
    (h' : Repeats goes' see out loc D acc₁ acc₂ redo') (w : Window see out loc)
    (hacc₁ : acc₁.Proper) (hacc₂ : acc₂.Proper) (hD : D <:+ loc)
    (hapart : ∀ k, goes k → ¬ goes' k) :
    Repeats (fun k => goes k ∨ goes' k) see out loc D acc acc₂
      fun see' g => redo see' g >>= redo' see' where
  kept k hk := by
    rw [not_or] at hk
    rw [h'.kept k hk.2, h.kept k hk.1]
  grows := h.grows.trans h'.grows
  again see' g hl := by
    have hbelow := (w.changesBelow hacc₁ hacc₂).widen hD
    have hfirst := h.again see' g ⟨hl.window, hl.proper, h'.grows.trans hl.grows,
      hbelow.trans hl.below, fun k hk => (hl.same k (.inl hk)).trans (h'.kept k (hapart k hk))⟩
    rw [hfirst]
    exact h'.again see' g { hl with same := fun k hk => hl.same k (.inr hk) }

end

section

variable {m : Manifest} {ctx : Context} {root dest : Path} {fs : FileSystem} {D loc sloc : Location}
  {see : Forest → FileSystem} {above outs : List Name} {n k : Name} {acc acc₁ f : Forest}
  {goes : Name → Prop} {t : Tree} {action : Action}

lemma emptied_eq {out : Path} (w : Window see out loc) (hacc : acc.Proper)
    (hk : isEntryName k.1 = true) (hk' : (out.child k).byteLength ≤ pathLimit)
    (hfree : acc.find? k.1 = none) :
    (makeRoom (out.child k) >>= fun _ => change (·.writeFile · ByteArray.empty) (out.child k))
      (see acc) = (.ok (), see (acc.put k (.file ByteArray.empty newFileMode))) := by
  have hplace := w.place hacc hk hk'
  have hd : (see acc).get? (k.1 :: loc) ≠ some .directory := by
    rw [w.get?_child hacc, hfree]
    simp
  have hput := w.replace (t := .file ByteArray.empty newFileMode) hacc hk hd (by simp [Tree.entry])
    (by simp [Tree.entry])
  have hwrite := writeFile_of_none hplace.erase (get?_erase_self hd) ByteArray.empty
  rw [bind_of_ok (makeRoom_of_leaf hplace hd (w.get?_child_ne hacc)), change_of_ok hwrite, ← hput]
  rfl

lemma materializeVisit_opens {out : Path} {g inside : Forest} (w : Window see out loc)
    (s : Source (see .nil) loc (sourceAt root above) sloc f) (hacc : acc.Proper)
    (ht : f.find? n.1 = some (.directory g))
    (hl : (sourceAt root (n :: above)).byteLength ≤ pathLimit) (hk : isEntryName k.1 = true)
    (hk' : (out.child k).byteLength ≤ pathLimit) (hin : overDirectory (acc.find? k.1) = .ok inside)
    (hlisted : ¬ (m.lookup (Path.text ⟨.relative, n :: above⟩) = none ∧
      Path.text ⟨.relative, n :: above⟩ = Manifest.fileName))
    (heff : effective (see acc) ctx (m.lookup (Path.text ⟨.relative, n :: above⟩)) (out.child n) =
      .ok (some (action, out.child k))) (ha : action ≠ .copy) :
    inside.Proper ∧ materializeVisit m ctx root ⟨sourceAt root (n :: above), out.child n⟩ (see acc) =
      (.ok (out.child k, g.names), see (acc.put k (.directory inside))) := by
  have hopen := copyEntry_directory w s hacc ht hl hk hk'
  rw [hin] at hopen
  refine ⟨hopen.1, ?_⟩
  rw [materializeVisit_eq m ctx (out.child n) (entryAt_child w s hacc ht hl)]
  apply mapFailure_of_ok
  rw [resolveEntry_of_some hlisted heff]
  exact (congrFun (handle_of_descent ha) _).trans hopen.2

lemma copied_repeats {out : Path} (w : Window see out loc) (hacc : acc.Proper) (hgoes : goes k)
    (hfree : acc.find? k.1 = none) (ht : t.Sorted) (D : Location) (p : Pair) :
    Stays (do
        let u ← t.copied p (acc.find? k.1)
        pure (acc.put k u))
      fun acc₁ => acc₁.Proper → Repeats goes see out loc D acc acc₁ (fun _ g => do
        let u ← t.copied p (g.find? k.1)
        pure (g.put k u)) := by
  rw [hfree]
  refine (t.copied_again ht p).bind_eq fun u _ hu hput => ?_
  refine repeats_put w hacc hput hgoes hfree fun see' g _ hthere => ?_
  rw [hthere, hu]
  rfl

lemma filled_repeats {out : Path} (ctx : Context) (p : Pair) (bytes : ByteArray) (mode : Nat)
    (w : Window see out loc) (hacc : acc.Proper) (hk : isEntryName k.1 = true) (hD : D <:+ loc)
    (hgoes : goes k) (hfree : acc.find? k.1 = none)
    (hover : p.check = .ok () → ∀ text q, Text.Utf8.decode bytes = .ok text →
      Consults (see (acc.put k (.file ByteArray.empty newFileMode))) ctx text.toList q →
      (see (acc.put k (.file ByteArray.empty newFileMode))).Overlooks q D) :
    Stays (do
        p.check
        overLeaf (acc.find? k.1)
        let content ← filled (see (acc.put k (.file ByteArray.empty newFileMode))) ctx bytes
        pure (acc.put k (.file content mode)))
      fun acc₁ => acc₁.Proper → Repeats goes see out loc D acc acc₁ (fun see' g => do
        p.check
        overLeaf (g.find? k.1)
        let content ← filled (see' (g.put k (.file ByteArray.empty newFileMode))) ctx bytes
        pure (g.put k (.file content mode))) := by
  refine (check_stays p).bind_eq fun _ hcheck _ => ?_
  refine (overLeaf_stays _).bind_eq fun _ _ _ => ?_
  refine (filled_stays _ ctx bytes).bind_eq fun content hcontent _ hput => ?_
  refine repeats_put w hacc hput hgoes hfree fun see' g hl hthere => ?_
  have hempty : (acc.put k (.file ByteArray.empty newFileMode)).Proper := hacc.put hk trivial
  have hempty' : (g.put k (.file ByteArray.empty newFileMode)).Proper := hl.proper.put hk trivial
  have hgrows : (see acc).Extends (see' g) := (w.extends_put hacc hput hfree).trans hl.grows
  have hbelow := ((w.changesBelow hempty hput).widen hD).trans
    (hl.below.trans ((hl.window.changesBelow hl.proper hempty').widen hD))
  have hsize := (w.extends_put_put hl.window hacc hl.proper hempty hempty' hgrows).size_le
  rw [hthere, hcheck, filled_again (fun text x htext =>
    expandString_again (fun q hq => hover hcheck text q htext hq) hbelow hsize) hcontent]
  rfl

lemma descended_repeats {out : Path} (source : Path)
    (below : (Forest → FileSystem) → Forest → Except Stop Forest) (goes' : Name → Prop)
    (w : Window see out loc) (hacc : acc.Proper) (hk : isEntryName k.1 = true) (hgoes : goes k)
    (hfree : acc.find? k.1 = none)
    (hbelow : Pair.check ⟨source, out.child k⟩ = .ok () →
      Stays (below (fun x => see (acc.put k (.directory x))) .nil) fun g =>
        Repeats goes' (fun x => see (acc.put k (.directory x))) (out.child k) (k.1 :: loc) D .nil g
          below) :
    Stays (do
        Pair.check ⟨source, out.child k⟩
        let inside ← overDirectory (acc.find? k.1)
        let g ← below (fun x => see (acc.put k (.directory x))) inside
        pure (acc.put k (.directory g)))
      fun acc₁ => acc₁.Proper → Repeats goes see out loc D acc acc₁ (fun see' h => do
        Pair.check ⟨source, out.child k⟩
        let inside ← overDirectory (h.find? k.1)
        let g ← below (fun x => see' (h.put k (.directory x))) inside
        pure (h.put k (.directory g))) := by
  refine (check_stays _).bind_eq fun _ hcheck _ => ?_
  have hinside : Stays (overDirectory (acc.find? k.1)) (· = .nil) := by
    rw [hfree]
    rfl
  refine hinside.bind_eq fun _ _ hnil => ?_
  subst hnil
  refine (hbelow hcheck).bind_eq fun g _ hrepeats hput => ?_
  refine repeats_put w hacc hput hgoes hfree fun see' h hl hthere => ?_
  have hsee : see' (h.put k (.directory g)) = see' h := by rw [Forest.put_of_find? hthere]
  have hagain := hrepeats.again (fun x => see' (h.put k (.directory x))) g
    ⟨hl.window.inner hl.proper hk (fits_of_check hcheck).2, (hl.proper.find? hthere).1,
      hsee ▸ hl.grows, hsee ▸ hl.below, fun _ _ => rfl⟩
  rw [hcheck, hthere]
  exact congrArg (· >>= fun x => pure (h.put k (.directory x))) hagain

lemma Enters.decided (e : Enters m ctx root dest fs D see above outs loc sloc f acc)
    (hrep : Repeatable m ctx root dest fs D) {d : Path}
    (hcomes : Comes (materializeVisit m ctx root) [⟨root, dest⟩] fs
      ⟨sourceAt root (n :: above), d⟩ (see acc)) {chosen : Option (Action × Name)}
    (hdec : decision m ctx root (see acc) n above = .ok chosen)
    {r : Except Stop Forest} {redo redo' : (Forest → FileSystem) → Forest → Except Stop Forest}
    (h : Stays r fun acc₁ => acc₁.Proper →
      Repeats goes see (sourceAt dest outs) loc D acc acc₁ redo)
    (hredo : ∀ see' g, decision m ctx root (see' g) n above = .ok chosen →
      redo' see' g = redo see' g) :
    Stays r fun acc₁ => acc₁.Proper →
      Repeats goes see (sourceAt dest outs) loc D acc acc₁ redo' := by
  refine h.imp_eq fun acc₁ _ h hacc₁ => ?_
  obtain ⟨hkept, hgrows, hagain⟩ := h hacc₁
  refine ⟨hkept, hgrows, fun see' g hl => ?_⟩
  have hbelow := ((e.window.changesBelow e.proper hacc₁).widen e.inside).trans hl.below
  rw [hredo see' g, hagain see' g hl]
  exact decision_again (fun rule x hrule ha => expandString_again (fun p hp =>
    hrep.overlooks _ _ p (.name hcomes hrule ha) hp) hbelow (hgrows.trans hl.grows).size_le) hdec

lemma Enters.child (e : Enters m ctx root dest fs D see above outs loc sloc f acc)
    {g inside : Forest} (hin : inside.Proper) (ht : f.find? n.1 = some (.directory g))
    (hk : isEntryName k.1 = true) (hfits : (sourceAt root (n :: above)).byteLength ≤ pathLimit ∧
      ((sourceAt dest outs).child k).byteLength ≤ pathLimit)
    (hplaced : Placed m ctx root dest fs (n :: above) (k :: outs) action) (ha : action ≠ .copy) :
    Enters m ctx root dest fs D (fun g => see (acc.put k (.directory g))) (n :: above) (k :: outs)
      (k.1 :: loc) (n.1 :: sloc) g inside where
  window := e.window.inner e.proper hk hfits.2
  source := e.window.innerSource e.source e.proper hk ht hfits.1
  proper := hin
  inside := e.inside.trans (List.suffix_cons k.1 loc)
  placed := ⟨action, hplaced, ha⟩

end

end Walk

section

variable {m : Manifest} {ctx : Context} {root dest : Path} {fs : FileSystem} {D : Location}

mutual

lemma Tree.made_again (t : Tree) (hrep : Repeatable m ctx root dest fs D)
    {see : Forest → FileSystem} {above outs : List Name} {n : Name} {loc sloc : Location}
    {acc f : Forest} (e : Enters m ctx root dest fs D see above outs loc sloc f acc)
    (ht : f.find? n.1 = some t)
    (hcomes : ∀ q s, Comes (materializeVisit m ctx root)
      [⟨sourceAt root (n :: above), (sourceAt dest outs).child n⟩] (see acc) q s →
      Comes (materializeVisit m ctx root) [⟨root, dest⟩] fs q s)
    (hfree : ∀ k, Goes m ctx root dest fs above outs n k → acc.find? k.1 = none) :
    Stays (t.made m ctx root see above (sourceAt dest outs) n acc) fun acc₁ =>
      Repeats (Goes m ctx root dest fs above outs n) see (sourceAt dest outs) loc D acc acc₁
        fun see' g => t.made m ctx root see' above (sourceAt dest outs) n g := by
  have w := e.window
  have hacc := e.proper
  have hn := e.source.isEntryName ht
  have hhere := hcomes _ _ (.here _ [] _)
  have hrun := t.made_performs m ctx root w e.source hacc ht
  suffices h : Stays (t.made m ctx root see above (sourceAt dest outs) n acc) fun acc₁ =>
      acc₁.Proper → Repeats (Goes m ctx root dest fs above outs n) see (sourceAt dest outs) loc D
        acc acc₁ fun see' g => t.made m ctx root see' above (sourceAt dest outs) n g by
    refine h.imp_eq fun acc₁ hmade hacc₁ => hacc₁ ?_
    rw [hmade] at hrun
    exact hrun.1
  rw [Tree.made]
  refine (decision_stays m ctx root (see acc) n above).bind_eq fun chosen hdec _ => ?_
  rcases chosen with _ | ⟨action, k⟩
  · have hskipped : Stays (.ok acc) fun acc₁ => acc₁.Proper →
        Repeats (Goes m ctx root dest fs above outs n) see (sourceAt dest outs) loc D acc acc₁
          fun _ g => .ok g :=
      fun _ => repeats_refl _ see _ loc D acc
    refine e.decided hrep hhere hdec hskipped fun see' g hd => ?_
    rw [Tree.made, hd]
    rfl
  obtain ⟨_, hparent, hopen⟩ := e.placed
  obtain ⟨hlisted, heff, hk⟩ := effective_of_decision hn (sourceAt dest outs) hdec
  have hplaced : Placed m ctx root dest fs (n :: above) (k :: outs) action :=
    .entry hparent hopen hhere hlisted heff
  have hgoes : Goes m ctx root dest fs above outs n k := ⟨action, hplaced⟩
  have hnone := hfree k hgoes
  have hcopied := copied_repeats w hacc hgoes hnone (e.source.sorted.find? ht) D
    ⟨sourceAt root (n :: above), (sourceAt dest outs).child k⟩
  cases t with
  | link | pipe =>
    refine e.decided hrep hhere hdec hcopied fun see' g hd => ?_
    rw [Tree.made, hd]
    rfl
  | file bytes mode =>
    by_cases hmake : action = .make
    · subst hmake
      have hfilled := filled_repeats ctx
        ⟨sourceAt root (n :: above), (sourceAt dest outs).child k⟩ bytes mode w hacc hk e.inside
        hgoes hnone fun hcheck text q htext hq => ?_
      · refine e.decided hrep hhere hdec hfilled fun see' g hd => ?_
        rw [Tree.made, hd]
        rfl
      · have hfits := fits_of_check hcheck
        have hentry := entryAt_child w e.source hacc ht hfits.1
        exact hrep.overlooks _ _ q (.content hhere heff hentry
          (emptied_eq w hacc hk hfits.2 hnone) htext) hq
    · simp only [if_neg hmake]
      refine e.decided hrep hhere hdec hcopied fun see' g hd => ?_
      rw [Tree.made, hd]
      exact if_neg hmake
  | directory g =>
    by_cases hcopy : action = .copy
    · subst hcopy
      refine e.decided hrep hhere hdec hcopied fun see' g hd => ?_
      rw [Tree.made, hd]
      rfl
    · simp only [if_neg hcopy]
      have hdescended := descended_repeats (D := D) (sourceAt root (n :: above))
        (fun see' h => g.made m ctx root see' (n :: above) (sourceAt dest (k :: outs)) h)
        (fun k' => ∃ n' ∈ g.names, Goes m ctx root dest fs (n :: above) (k :: outs) n' k')
        w hacc hk hgoes hnone fun hcheck => ?_
      · refine e.decided hrep hhere hdec hdescended fun see' g hd => ?_
        rw [Tree.made, hd]
        exact if_neg hcopy
      · have hfits := fits_of_check hcheck
        have hinside : overDirectory (acc.find? k.1) = .ok .nil := by rw [hnone]; rfl
        have hopens := (materializeVisit_opens w e.source hacc ht hfits.1 hk hfits.2 hinside hlisted
          heff hcopy).2
        exact Forest.made_again g hrep (e.child trivial ht hk hfits hplaced hcopy)
          (e.source.sorted.find? ht) (fun _ _ h => h)
          (fun q s h => hcomes q s (.next hopens (by rwa [List.append_nil]))) fun _ _ _ _ => rfl

lemma Forest.made_again (g : Forest) (hrep : Repeatable m ctx root dest fs D)
    {see : Forest → FileSystem} {above outs : List Name} {loc sloc : Location}
    {acc f : Forest} (e : Enters m ctx root dest fs D see above outs loc sloc f acc)
    (hg : g.Sorted) (hf : ∀ k t, g.find? k = some t → f.find? k = some t)
    (hcomes : ∀ q s, Comes (materializeVisit m ctx root)
      (g.names.map (Pair.child ⟨sourceAt root above, sourceAt dest outs⟩ (sourceAt dest outs)))
      (see acc) q s → Comes (materializeVisit m ctx root) [⟨root, dest⟩] fs q s)
    (hfree : ∀ n ∈ g.names, ∀ k, Goes m ctx root dest fs above outs n k → acc.find? k.1 = none) :
    Stays (g.made m ctx root see above (sourceAt dest outs) acc) fun acc₁ =>
      Repeats (fun k => ∃ n ∈ g.names, Goes m ctx root dest fs above outs n k) see
        (sourceAt dest outs) loc D acc acc₁
        fun see' h => g.made m ctx root see' above (sourceAt dest outs) h := by
  cases g with
  | nil => exact repeats_refl _ see _ loc D acc
  | cons n t rest =>
    have ht : f.find? n.1 = some t := hf n.1 t (Forest.find?_cons_self n t rest)
    have hf' : ∀ k u, rest.find? k = some u → f.find? k = some u :=
      fun k u hu => hf k u (hg.find?_rest hu)
    have hapart (k : Name) (hk : Goes m ctx root dest fs above outs n k) :
        ¬ ∃ n' ∈ rest.names, Goes m ctx root dest fs above outs n' k := by
      rintro ⟨n', hn', a', h'⟩
      obtain ⟨a, h⟩ := hk
      exact hg.not_mem (hrep.apart n n' k above outs a a' h h' ▸ hn')
    refine Stays.bind_eq (Tree.made_again t hrep e ht (fun q s h => hcomes q s (comes_append h))
      (hfree n List.mem_cons_self)) fun acc' hfirst hone => ?_
    have hrun := t.made_performs m ctx root e.window e.source e.proper ht
    rw [hfirst] at hrun
    have e' : Enters m ctx root dest fs D see above outs loc sloc f acc' :=
      { e with proper := hrun.1 }
    refine (Forest.made_again rest hrep e' hg.2.2 hf'
      (fun q s h => hcomes q s (comes_append_of_run (materializeVisit_orderly m ctx root)
        ((hrun.2 []).trans (run_nil _ _)) h))
      (fun n' hn' k hk => (hone.kept k fun h => hapart k h ⟨n', hn', hk⟩).trans
        (hfree n' (List.mem_cons_of_mem n hn') k hk))).imp_eq fun acc₁ hmade hrest => ?_
    have hlast := rest.made_performs m ctx root e'.window e'.source e'.proper hg.2.2 hf'
    rw [hmade] at hlast
    have hboth := hone.bind hrest e.window hrun.1 hlast.1 e.inside hapart
    simpa only [Forest.names, List.exists_mem_cons_iff, Forest.made] using hboth

end

end

end Scaffold
