import Scaffold.Proofs.Walk.Merging
import Scaffold.Proofs.Walk.Raising

/-! A visit may take away a link or file that it passes through itself on the way to its
destination. It succeeds only if the destination is found afterwards, so the paths above that still
lead to directories then. -/

namespace Scaffold

inductive Path.Above (a : Path) : Path → Prop
  | child (n : Name) : Above a (a.child n)
  | deeper {p : Path} (h : Above a p) (n : Name) : Above a (p.child n)

namespace Path

variable {a p q : Path} {n k : Name}

lemma child_inj (h : p.child n = q.child k) : p = q ∧ n = k := by
  obtain ⟨anchor, names⟩ := p
  obtain ⟨anchor', names'⟩ := q
  simp only [child, mk.injEq, List.cons.injEq] at h
  obtain ⟨rfl, rfl, rfl⟩ := h
  exact ⟨rfl, rfl⟩

lemma Above.eq_or_above (h : a.Above (p.child n)) : a = p ∨ a.Above p := by
  generalize hq : p.child n = q at h
  cases h with
  | child =>
    obtain ⟨rfl, -⟩ := child_inj hq
    exact .inl rfl
  | deeper h =>
    obtain ⟨rfl, -⟩ := child_inj hq
    exact .inr h

lemma Above.sibling (h : a.Above (p.child n)) (k : Name) : a.Above (p.child k) := by
  rcases h.eq_or_above with rfl | h
  · exact .child k
  · exact h.deeper k

end Path

namespace FileSystem

def Upholds (fs fs' : FileSystem) (p : Path) : Prop :=
  ∀ a, a.Above p → (∃ l, fs.Leads a l) → ∃ l, fs'.Leads a l

section

variable {fs fs' fs'' : FileSystem} {a p : Path} {l : Location} {s : Spot} {q : Purpose}
  {bytes : ByteArray} {mode : Nat}

lemma Extends.upholds (h : fs.Extends fs') (p : Path) : fs.Upholds fs' p :=
  fun _ _ ⟨l, hl⟩ => ⟨l, hl.extends h⟩

lemma Upholds.trans (h : fs.Upholds fs' p) (h' : fs'.Upholds fs'' p) : fs.Upholds fs'' p :=
  fun a ha hl => h' a ha (h a ha hl)

lemma leads_of_above (h : a.Above p) (hf : fs.find q p = .ok s) : ∃ l, fs.Leads a l := by
  induction h generalizing q s with
  | child n => exact leads_of_child hf
  | deeper _ n ih =>
    obtain ⟨l, hl⟩ := leads_of_child hf
    exact ih hl

lemma Finds.upholds (h : fs'.Finds p) : fs.Upholds fs' p := by
  obtain ⟨q, s, hs⟩ := h
  exact fun a ha _ => leads_of_above ha hs

lemma Rewritten.upholds (h : fs.Rewritten fs') (p : Path) : fs.Upholds fs' p :=
  fun _ _ ⟨l, hl⟩ => ⟨l, h.leads hl⟩

lemma Spare.rewritten (h : fs.Spare l) (bytes : ByteArray) (mode : Nat) :
    fs.Rewritten (fs.set l (.file bytes mode)) := by
  by_cases hc : fs.canHold l = true
  · exact (h.set hc bytes mode).1
  · rw [FileSystem.set, dif_neg fun hset => hc hset.1]
    exact .refl fs

lemma spare_of_get? (h : fs.get? l = some (.file bytes mode)) : fs.Spare l :=
  fun _ he => ⟨bytes, mode, Option.some.inj (he.symm.trans h)⟩

lemma rewritten_of_writeFile (h : fs.writeFile p bytes = .ok fs') :
    fs.Finds p ∧ fs.Rewritten fs' := by
  rw [writeFile] at h
  rcases hf : fs.find .writing p with r | (⟨l, e⟩ | l)
  · rw [hf] at h
    cases h
  · refine ⟨⟨_, _, hf⟩, ?_⟩
    rw [hf] at h
    cases e with
    | directory => cases h
    | file b m =>
      cases h
      exact (spare_of_get? (get?_of_there hf)).rewritten bytes m
    | link | pipe =>
      cases h
      exact .refl fs
  · refine ⟨⟨_, _, hf⟩, ?_⟩
    have hspare : fs.Spare l := fun e he => by simp [get?_of_vacant hf] at he
    rw [hf] at h
    cases h
    exact hspare.rewritten bytes newFileMode

lemma rewritten_of_setMode (h : fs.setMode p mode = .ok fs') : fs.Rewritten fs' := by
  rw [setMode] at h
  rcases hf : fs.find .target p with r | (⟨l, e⟩ | l)
  · rw [hf] at h
    cases h
  · rw [hf] at h
    cases e with
    | file b m =>
      cases h
      exact (spare_of_get? (get?_of_there hf)).rewritten b mode
    | directory | link | pipe =>
      cases h
      exact .refl fs
  · rw [hf] at h
    cases h

end

end FileSystem

namespace FileAction

open Attempt FileSystem

section

variable {α : Type} {fs fs₁ fs' : FileSystem} {source dest : Path} {ctx : Context}
  {a : FileAction α} {x : α} {u : Unit}

lemma Replaces.upholds (h : Replaces source dest a fs) (ha : a fs = (.ok x, fs')) :
    fs.Upholds fs' dest := by
  obtain ⟨fs₁, -, hfills, hfinds⟩ := h
  rw [ha] at hfills hfinds
  exact (hfinds x rfl).2.upholds.trans (hfills.extends.upholds dest)

lemma expandInto_upholds (h : expandInto source dest ctx fs₁ = (.ok u, fs')) :
    fs.Upholds fs' dest := by
  obtain ⟨_, _, hask, hrest⟩ := bind_eq_ok h
  obtain ⟨rfl, -⟩ := ask_state hask
  obtain ⟨_, _, hempty, -⟩ := bind_eq_ok hrest
  have hfinds := (rewritten_of_writeFile (change_eq_ok hempty)).1
  have hwrite (s s' : FileSystem) (bytes : ByteArray) (hs : fs.Upholds s dest)
      (hw : s.writeFile dest bytes = .ok s') : fs.Upholds s' dest :=
    hs.trans ((rewritten_of_writeFile hw).2.upholds dest)
  have hmaintains : Maintains (fun s => fs.Upholds s dest) (expandInto source dest ctx) :=
    expandInto_maintains ctx hwrite
  have hkeeps := hmaintains _ hfinds.upholds
  rwa [h] at hkeeps

lemma copyMode_upholds (h : copyMode source dest fs = (.ok u, fs')) : fs.Upholds fs' dest := by
  obtain ⟨mode, _, hask, hchange⟩ := bind_eq_ok h
  obtain ⟨rfl, -⟩ := ask_state hask
  exact (rewritten_of_setMode (change_eq_ok hchange)).upholds dest

end

end FileAction

namespace Walk

open Attempt FileAction FileSystem

section

variable {fs fs' : FileSystem} {p : Pair} {a source dest out : Path} {names : List Name}
  {ctx : Context} {action : Action} {e : Entry}

lemma openDirectory_leaves (h : openDirectory source dest fs = (.ok (out, names), fs')) :
    out = dest ∧ fs.Extends fs' ∧ (∃ l, fs'.Leads dest l) ∧
      ∀ n ∈ names, isEntryName n.1 = true := by
  obtain ⟨_, fs₁, hmake, hask⟩ := bind_eq_ok h
  obtain ⟨ns, fs₂, hlist, hend⟩ := bind_eq_ok hask
  obtain ⟨rfl, hlist⟩ := ask_state hlist
  cases hend
  have hgrows := (makeDirectories_prepares dest fs).grows
  rw [hmake] at hgrows
  exact ⟨rfl, hgrows, makeDirectories_leads hmake, (isEntryName_of_list hlist).2⟩

lemma copyEntry_upholds (h : copyEntry p e fs = (.ok (out, names), fs')) :
    out = p.dest ∧ fs.Upholds fs' p.dest := by
  by_cases hdir : e = .directory
  · subst hdir
    obtain ⟨rfl, hgrows, -⟩ := openDirectory_leaves h
    exact ⟨rfl, hgrows.upholds _⟩
  · refine ⟨?_, (copyEntry_replaces hdir p fs).upholds h⟩
    cases e with
    | directory => exact absurd rfl hdir
    | pipe => cases h
    | link | file =>
      obtain ⟨_, _, -, h⟩ := bind_eq_ok h
      cases h
      rfl

lemma copyVisit_upholds (h : copyVisit p fs = (.ok (out, names), fs')) :
    out = p.dest ∧ fs.Upholds fs' p.dest := by
  obtain ⟨e, fs₁, hask, hentry⟩ := bind_eq_ok (mapFailure_eq_ok h)
  have hcopy : copyEntry p e fs₁ = (.ok (out, names), fs') := by cases e <;> exact hentry
  rw [(ask_state hask).1] at hcopy
  exact copyEntry_upholds hcopy

lemma run_copyVisit_upholds {work : List Pair} (hw : ∀ p ∈ work, a.Above p.dest)
    (h : run copyVisit work fs = (.ok (), fs')) (hl : ∃ l, fs.Leads a l) :
    ∃ l, fs'.Leads a l := by
  induction work, fs using run.induct copyVisit with
  | case1 fs =>
    rw [run_nil] at h
    cases h
    exact hl
  | case2 fs p rest e fs₁ hp =>
    rw [run_of_error hp] at h
    cases h
  | case3 fs p rest out names fs₁ hp hlen ih | case4 fs p rest out names fs₁ hp hlen ih =>
    obtain ⟨rfl, hup⟩ := copyVisit_upholds hp
    have hpending : ∀ q ∈ pending p p.dest names rest, a.Above q.dest := by
      intro q hq
      rcases mem_pending hq with ⟨n, -, rfl⟩ | hq
      · exact (hw p List.mem_cons_self).deeper n
      · exact hw q (List.mem_cons_of_mem p hq)
    rw [run_of_visit hp] at h
    simp only [pending, hlen, if_true, if_false] at h hpending
    exact ih hpending h (hup a (hw p List.mem_cons_self) hl)

lemma copyTree_upholds {u : Unit} (h : copyTree source dest fs = (.ok u, fs')) :
    fs.Upholds fs' dest :=
  fun _ ha hl => run_copyVisit_upholds (List.forall_mem_singleton.mpr ha) h hl

lemma handle_upholds (h : handle ctx source action dest e fs = (.ok (out, names), fs')) :
    out = dest ∧ fs.Upholds fs' dest := by
  rcases handle_cases ctx source action dest e with
    hcopy | ⟨rfl, rfl⟩ | ⟨rfl, bytes, mode, rfl⟩
  · rw [hcopy] at h
    exact copyEntry_upholds h
  · obtain ⟨_, _, htree, hend⟩ := bind_eq_ok h
    cases hend
    exact ⟨rfl, copyTree_upholds htree⟩
  · obtain ⟨_, _, -, hrest⟩ := bind_eq_ok h
    obtain ⟨_, _, hexpand, hrest⟩ := bind_eq_ok hrest
    obtain ⟨_, _, hmode, hend⟩ := bind_eq_ok hrest
    cases hend
    exact ⟨rfl, (expandInto_upholds hexpand).trans (copyMode_upholds hmode)⟩

end

end Walk

end Scaffold
