import Scaffold.Proofs.Walk.Fresh
import Scaffold.Proofs.Walk.Raising

/-! A manifest that renames nothing, leaves nothing out and expands nothing makes of a template what
a copy makes of it, with the same changes on the way to a failure. -/

namespace Scaffold

/-- Every rule keeps the name of its entry, and neither expands it nor leaves it out. -/
def Manifest.Plain (m : Manifest) : Prop :=
  ∀ key rule, m.files.get? key = some rule →
    rule.name = "" ∧ (rule.action = .auto ∨ rule.action = .copy)

lemma Path.text_single (n : Name) : Path.text ⟨.relative, [n]⟩ = n.1 := by
  rw [Path.text, if_neg (by simp [Path.here])]
  simp [Path.steps, Path.anchorText]

lemma Path.slash_mem_text (k n : Name) (above : List Name) :
    '/' ∈ (Path.text ⟨.relative, k :: n :: above⟩).toList := by
  have hlen : (Path.steps ⟨.relative, k :: n :: above⟩).length = above.length + 2 := by
    simp [Path.steps]
  rw [Path.text, if_neg (by simp [Path.here])]
  obtain ⟨a, rest, hs⟩ := List.exists_cons_of_length_eq_add_one hlen
  rw [hs, List.length_cons, Nat.add_right_cancel_iff] at hlen
  obtain ⟨b, l, rfl⟩ := List.exists_cons_of_length_eq_add_one hlen
  rw [hs, String.intercalate_cons_cons]
  simp

namespace Walk

open Attempt FileAction FileSystem

def Listed (m : Manifest) (root : Path) (p : Pair) : Prop :=
  ∃ n above, p.source = sourceAt root (n :: above) ∧
    ¬ (m.lookup (Path.text ⟨.relative, n :: above⟩) = none ∧
      Path.text ⟨.relative, n :: above⟩ = Manifest.fileName)

section

variable {m : Manifest} {ctx : Context} {root dest out : Path} {p : Pair} {names : List Name}
  {fs fs' : FileSystem}

lemma Listed.child (h : Listed m root p) (out : Path) (n : Name) :
    Listed m root (p.child out n) := by
  obtain ⟨k, above, hp, -⟩ := h
  refine ⟨n, k :: above, by rw [Pair.child, hp, child_sourceAt], fun hm => ?_⟩
  have hslash := Path.slash_mem_text n k above
  rw [hm.2] at hslash
  exact absurd hslash (by decide)

lemma effective_of_plain (fs : FileSystem) (ctx : Context) (hm : m.Plain) (rel : String)
    (dest : Path) : ∃ action, (action = .auto ∨ action = .copy) ∧
      effective fs ctx (m.lookup rel) dest = .ok (some (action, dest)) := by
  cases hr : m.lookup rel with
  | none => exact ⟨.auto, .inl rfl, rfl⟩
  | some rule =>
    obtain ⟨hname, haction⟩ := hm rel rule hr
    obtain ⟨action, name⟩ := rule
    obtain rfl : name = "" := hname
    rcases haction with rfl | rfl
    · exact ⟨.auto, .inl rfl, rfl⟩
    · exact ⟨.copy, .inr rfl, rfl⟩

lemma materializeVisit_agrees (ctx : Context) (fs : FileSystem) (hm : m.Plain)
    (hp : Listed m root p) :
    (∃ e d fs', materializeVisit m ctx root p fs = (.error e, fs') ∧
      run copyVisit [p] fs = (.error d, fs')) ∨
    ∃ out names fs', materializeVisit m ctx root p fs = (.ok (out, names), fs') ∧
      (copyVisit p fs = (.ok (out, names), fs') ∨
        names = [] ∧ run copyVisit [p] fs = (.ok (), fs')) := by
  obtain ⟨source, dest⟩ := p
  obtain ⟨n, above, rfl, hlisted⟩ := hp
  cases he : fs.entryAt (sourceAt root (n :: above)) with
  | error r =>
    left
    have hask : FileAction.ask FileSystem.entryAt (sourceAt root (n :: above)) fs =
        (.error (.obstacle (.refused r (sourceAt root (n :: above)).text)), fs) := by
      rw [FileAction.ask, he]
    have hbelow : materializeVisit m ctx root ⟨sourceAt root (n :: above), dest⟩ =
        mapFailure (blameEntry ⟨sourceAt root (n :: above), dest⟩)
          (visitEntry m ctx root ⟨sourceAt root (n :: above), dest⟩) := by
      rw [materializeVisit, if_neg (sourceAt_ne_root root n above)]
    have hmade := (congrFun hbelow fs).trans (mapFailure_of_error (bind_of_error hask _) _)
    have hcopied : copyVisit ⟨sourceAt root (n :: above), dest⟩ fs = _ :=
      mapFailure_of_error (bind_of_error hask _) _
    exact ⟨_, _, fs, hmade, run_of_error hcopied []⟩
  | ok e =>
    obtain ⟨action, haction, heff⟩ := effective_of_plain fs ctx hm
      (Path.text ⟨.relative, n :: above⟩) dest
    have hvisit := materializeVisit_eq m ctx dest he
    rw [mapFailure, resolveEntry_of_some hlisted heff] at hvisit
    by_cases hcopy : e = .directory ∧ action = .copy
    · obtain ⟨rfl, rfl⟩ := hcopy
      rw [handle, if_pos rfl, bind_apply] at hvisit
      rcases hrun : copyTree (sourceAt root (n :: above)) dest fs with ⟨d | u, fs'⟩
      · rw [hrun] at hvisit
        exact .inl ⟨_, d, fs', hvisit, hrun⟩
      · rw [hrun] at hvisit
        exact .inr ⟨dest, [], fs', hvisit, .inr ⟨rfl, hrun⟩⟩
    · have hhandle : handle ctx (sourceAt root (n :: above)) action dest e =
          copyEntry ⟨sourceAt root (n :: above), dest⟩ e := by
        by_cases hdir : e = .directory
        · subst hdir
          exact handle_of_descent fun hc => hcopy ⟨rfl, hc⟩
        · refine handle_of_leaf hdir (.inl ?_)
          rintro rfl
          rcases haction with h | h <;> cases h
      have hcopied := copyVisit_eq (p := ⟨sourceAt root (n :: above), dest⟩) he
      rw [hhandle] at hvisit
      rw [mapFailure] at hcopied
      rcases hentry : copyEntry ⟨sourceAt root (n :: above), dest⟩ e fs with ⟨d | ⟨out, names⟩, fs'⟩
      · rw [hentry] at hvisit hcopied
        exact .inl ⟨_, _, fs', hvisit, run_of_error hcopied []⟩
      · rw [hentry] at hvisit hcopied
        exact .inr ⟨out, names, fs', hvisit, .inl hcopied⟩

def Agree (x y : Except Failure Unit × FileSystem) : Prop :=
  x.2 = y.2 ∧ (x.1 = .ok () ↔ y.1 = .ok ())

lemma agree_refl (x : Except Failure Unit × FileSystem) : Agree x x := ⟨rfl, .rfl⟩

lemma agree_errors (e d : Failure) (fs : FileSystem) : Agree (.error e, fs) (.error d, fs) :=
  ⟨rfl, by simp⟩

lemma run_of_made (hm : m.Plain) (hp : Listed m root p)
    (hmade : materializeVisit m ctx root p fs = (.ok (out, names), fs')) (rest : List Pair) :
    run copyVisit (p :: rest) fs = run copyVisit (pending p out names rest) fs' := by
  rcases materializeVisit_agrees ctx fs hm hp with ⟨_, _, _, hvisit, -⟩ | ⟨_, _, _, hvisit, hcopy⟩
  · cases hmade.symm.trans hvisit
  cases hmade.symm.trans hvisit
  rcases hcopy with hcopy | ⟨rfl, hcopy⟩
  · exact run_of_visit hcopy rest
  -- The copy is through with a whole directory only now, and then goes on behind it.
  · rw [pending_nil]
    exact (run_append copyVisit [p] rest fs).trans (bind_of_ok hcopy _)

lemma Listed.pending {work : List Pair} (h : ∀ q ∈ p :: work, Listed m root q) (out : Path)
    (names : List Name) : ∀ q ∈ pending p out names work, Listed m root q := by
  intro q hq
  rcases mem_pending hq with ⟨n, -, rfl⟩ | hq
  · exact (h p List.mem_cons_self).child out n
  · exact h q (List.mem_cons_of_mem p hq)

lemma run_agrees (hm : m.Plain) (work : List Pair) (fs : FileSystem)
    (hw : ∀ p ∈ work, Listed m root p) :
    Agree (run (materializeVisit m ctx root) work fs) (run copyVisit work fs) := by
  induction work, fs using run.induct (materializeVisit m ctx root) with
  | case1 fs =>
    rw [run_nil, run_nil]
    exact agree_refl _
  | case2 fs p rest e fs' hp =>
    rcases materializeVisit_agrees ctx fs hm (hw p List.mem_cons_self) with
      ⟨_, d, _, hmade, hcopy⟩ | ⟨_, _, _, hmade, -⟩
    · cases hp.symm.trans hmade
      have hcopied : run copyVisit (p :: rest) fs = (.error d, fs') :=
        (run_append copyVisit [p] rest fs).trans (bind_of_error hcopy _)
      rw [run_of_error hp, hcopied]
      exact agree_errors e d fs'
    · cases hp.symm.trans hmade
  | case3 fs p rest out names fs' hp hl ih | case4 fs p rest out names fs' hp hl ih =>
    have hlisted := Listed.pending hw out names
    rw [run_of_visit hp, run_of_made hm (hw p List.mem_cons_self) hp]
    simp only [Walk.pending, hl, if_true, if_false] at hlisted ⊢
    exact ih hlisted

end

section

variable {m : Manifest} {ctx : Context} {root dest : Path} {p : Pair} {fs : FileSystem}
  {e : Failure}

lemma blamed_of_clean (h : Clean p) (he : Meets [p.source, p.dest] e) :
    (blameEntry p e).isOfWalk = true := by
  rcases blamed_of_meets he p with hwalk | ⟨q, hq, hnul, -⟩
  · exact hwalk
  · rcases List.mem_pair.mp hq with rfl | rfl
    · exact absurd hnul (by simp [h.1])
    · exact absurd hnul (by simp [h.2])

lemma visitEntry_blamed (hm : m.Plain) (h : Clean p) : Raises (visitEntry m ctx root p fs)
    fun e => (blameEntry p e).isOfWalk = true := by
  have hask : Raises (FileAction.ask FileSystem.entryAt p.source fs) (Meets [p.source, p.dest]) :=
    ask_raises (by simp) entryAt_nul
  refine (hask.imp fun e => blamed_of_clean h).bind fun entry fs₁ _ => ?_
  refine Raises.bind (E := fun e => (blameEntry p e).isOfWalk = true) ?_ fun rel fs₂ _ => ?_
  · rw [pathBelow]
    cases p.source.relativeTo? root with
    | none => exact raises_error rfl
    | some q => exact raises_ok _ fs₁
  by_cases hfile : m.lookup rel = none ∧ rel = Manifest.fileName
  · rw [if_pos hfile]
    exact raises_ok _ fs₂
  · rw [if_neg hfile]
    obtain ⟨action, haction, heff⟩ := effective_of_plain fs₂ ctx hm rel p.dest
    rw [bind_apply, look, heff]
    refine (handle_meets (.inl ?_)).imp fun e => blamed_of_clean h
    rintro rfl
    rcases haction with h | h <;> cases h

lemma materialize_blamed (hm : m.Plain) (ctx : Context) (fs : FileSystem)
    (hroot : root.hasNul = false) (hdest : dest.hasNul = false) :
    Raises (materialize m ctx root dest fs) fun e => e.isOfWalk = true := by
  refine run_raises (I := Clean) (fun p fs hp => ?_)
    (fun _ _ _ _ _ _ hvisit => materializeVisit_clean hvisit) _ (fun p hp => ?_) fs
  · rw [materializeVisit]
    split
    · exact (visitRoot_raises p fs).mapFailure fun e => blamed_of_clean hp
    · exact (visitEntry_blamed hm hp).mapFailure fun e => id
  · obtain rfl := List.mem_singleton.mp hp
    exact ⟨hroot, hdest⟩

lemma copyTree_blamed (fs : FileSystem) (hroot : root.hasNul = false)
    (hdest : dest.hasNul = false) :
    Raises (copyTree root dest fs) fun e => e.isOfWalk = true := by
  refine (copyTree_raises root dest fs).imp fun e he => he.elim id ?_
  rintro ⟨q, hq, hnul, -⟩
  rcases List.mem_pair.mp hq with rfl | rfl
  · exact absurd hnul (by simp [hroot])
  · exact absurd hnul (by simp [hdest])

end

section

variable {m : Manifest} {ctx : Context} {root dest : Path} {names : List Name} {T : Location}
  {fs : FileSystem}

lemma listed_of_list (hroot : fs.Leads root T) (hlist : fs.list root = .ok names)
    (hfile : fs.get? (Manifest.fileName :: T) = none ∨
      (m.lookup Manifest.fileName).isSome = true) (dest out : Path) :
    ∀ n ∈ names, Listed m root (Pair.child ⟨root, dest⟩ out n) := by
  intro n hn
  refine ⟨n, [], rfl, ?_⟩
  rintro ⟨hrule, hname⟩
  rw [hname] at hrule
  rw [Path.text_single] at hname
  rcases hfile with hfile | hfile
  · have hthere : n.1 ∈ fs.names T := by
      rw [FileSystem.list, hroot] at hlist
      cases hlist
      obtain ⟨k, -, rfl⟩ := List.mem_map.mp hn
      exact k.2
    rw [fs.mem_names, hname, hfile] at hthere
    cases hthere
  · rw [hrule] at hfile
    cases hfile

theorem materialize_agrees_copyTree (m : Manifest) (ctx : Context) (root dest : Path)
    (fs : FileSystem) (T : Location) (hm : m.Plain)
    (hroot : fs.find .entry root = .ok (.there T .directory))
    (hfile : (makeDirectories dest fs).2.get? (Manifest.fileName :: T) = none ∨
      (m.lookup Manifest.fileName).isSome = true) :
    Agree (materialize m ctx root dest fs) (copyTree root dest fs) ∧
    (dest.hasNul = false → ∀ e, (materialize m ctx root dest fs).1 = .error e ∨
      (copyTree root dest fs).1 = .error e → e.isOfWalk = true) := by
  have hleads := leads_of_entry hroot
  have hnul := hasNul_of_find hroot
  refine ⟨?_, fun hdest e he => he.elim (materialize_blamed hm ctx fs hnul hdest e)
    (copyTree_blamed fs hnul hdest e)⟩
  have hmade := materializeVisit_root m ctx dest hleads
  have hcopied : copyVisit ⟨root, dest⟩ fs = _ := copyVisit_directory hroot
  rcases hopen : openDirectory root dest fs with ⟨e | ⟨out, names⟩, fs₁⟩
  · rw [mapFailure_of_error hopen] at hmade hcopied
    rw [materialize, copyTree, run_of_error hmade, run_of_error hcopied]
    exact agree_errors _ _ fs₁
  · rw [mapFailure_of_ok hopen] at hmade hcopied
    rw [materialize, copyTree, run_of_visit hmade, run_of_visit hcopied]
    obtain ⟨_, fs₂, hdirs, hask⟩ := bind_eq_ok hopen
    obtain ⟨ns, fs₃, hlist, hend⟩ := bind_eq_ok hask
    obtain ⟨rfl, hlist⟩ := ask_state hlist
    cases hend
    have hgrows := (makeDirectories_prepares dest fs).grows
    rw [hdirs] at hfile hgrows
    apply run_agrees hm
    intro p hp
    rcases mem_pending hp with ⟨n, hn, rfl⟩ | hp
    · exact listed_of_list (hleads.extends hgrows) hlist hfile dest _ n hn
    · cases hp

end

lemma isName_a : isName "a" = true := rfl

lemma isName_b : isName "b" = true := rfl

lemma isName_f : isName "f" = true := rfl

def strayTemplate : Forest :=
  .cons ⟨"a", isName_a⟩ (.link "../e")
    (.cons ⟨"b", isName_b⟩ (.directory (.cons ⟨"f", isName_f⟩ (.file "new".toUTF8 0o644) .nil))
      .nil)

def strayFiles : FileSystem :=
  strayTemplate.writeTo ((FileSystem.empty.set ["t"] .directory).set ["e"] .directory) ["t"]

lemma plain_of_empty : Manifest.empty.Plain := fun _ _ h => nomatch h

def plainManifest : Manifest :=
  { Manifest.empty with files := .ofList [("b", ⟨.copy, ""⟩)] }

lemma plainManifest_plain : plainManifest.Plain := by
  intro key rule h
  have hfind : (if "b" = key then some (FileRule.mk .copy "") else none) = some rule := h
  obtain rfl := Option.some.inj (Option.ite_none_right_eq_some.mp hfind).2
  exact ⟨rfl, .inr rfl⟩

theorem materialize_agrees_copyTree_whole :
    (materialize plainManifest ⟨∅, .here⟩ ⟨.relative, [⟨"t", rfl⟩]⟩ ⟨.relative, [⟨"o", rfl⟩]⟩
      strayFiles).2.get? ["f", "b", "o"] = some (.file "new".toUTF8 0o644) := by
  have hrun : ((runWithin copyVisit 4
      [⟨⟨.relative, [⟨"t", rfl⟩]⟩, ⟨.relative, [⟨"o", rfl⟩]⟩⟩] strayFiles).map
      fun r => r.2.get? ["f", "b", "o"]) = some (some (.file "new".toUTF8 0o644)) := by
    decide +kernel
  obtain ⟨r, hr, hget⟩ := Option.map_eq_some_iff.mp hrun
  have hagree := (materialize_agrees_copyTree plainManifest ⟨∅, .here⟩ ⟨.relative, [⟨"t", rfl⟩]⟩
    ⟨.relative, [⟨"o", rfl⟩]⟩ strayFiles ["t"] plainManifest_plain rfl (.inl (by decide +kernel))).1
  rw [hagree.1, copyTree, run_of_runWithin hr]
  exact hget

def bareFiles : FileSystem := FileSystem.empty.set ["t"] .directory

/-- On the way to the destination an entry of the template can come to be that the walk takes for
the manifest. -/
theorem materialize_on_the_way :
    Manifest.empty.Plain ∧
    bareFiles.find .entry ⟨.relative, [⟨"t", rfl⟩]⟩ = .ok (.there ["t"] .directory) ∧
    bareFiles.get? [Manifest.fileName, "t"] = none ∧
    (materialize Manifest.empty ⟨∅, .here⟩ ⟨.relative, [⟨"t", rfl⟩]⟩
      ⟨.relative, [⟨"o", rfl⟩, ⟨"..", rfl⟩, ⟨"..", rfl⟩, ⟨Manifest.fileName, rfl⟩, ⟨"t", rfl⟩]⟩
      bareFiles).2.get? [Manifest.fileName, "o"] = none ∧
    (copyTree ⟨.relative, [⟨"t", rfl⟩]⟩
      ⟨.relative, [⟨"o", rfl⟩, ⟨"..", rfl⟩, ⟨"..", rfl⟩, ⟨Manifest.fileName, rfl⟩, ⟨"t", rfl⟩]⟩
      bareFiles).2.get? [Manifest.fileName, "o"] = some .directory ∧
    (materialize Manifest.empty ⟨∅, .here⟩ ⟨.relative, [⟨"t", rfl⟩]⟩ ⟨.relative, [⟨"\x00", rfl⟩]⟩
      bareFiles).1 = .error (.obstacle (.refused .embeddedNul "\x00")) := by
  let target : Path :=
    ⟨.relative, [⟨"o", rfl⟩, ⟨"..", rfl⟩, ⟨"..", rfl⟩, ⟨Manifest.fileName, rfl⟩, ⟨"t", rfl⟩]⟩
  have hmake : ((runWithin (materializeVisit Manifest.empty ⟨∅, .here⟩ ⟨.relative, [⟨"t", rfl⟩]⟩) 2
      [⟨⟨.relative, [⟨"t", rfl⟩]⟩, target⟩] bareFiles).map
      fun r => r.2.get? [Manifest.fileName, "o"]) = some none := by
    decide +kernel
  have hcopy : ((runWithin copyVisit 2 [⟨⟨.relative, [⟨"t", rfl⟩]⟩, target⟩] bareFiles).map
      fun r => r.2.get? [Manifest.fileName, "o"]) = some (some .directory) := by
    decide +kernel
  have hnul : ((runWithin (materializeVisit Manifest.empty ⟨∅, .here⟩ ⟨.relative, [⟨"t", rfl⟩]⟩) 1
      [⟨⟨.relative, [⟨"t", rfl⟩]⟩, ⟨.relative, [⟨"\x00", rfl⟩]⟩⟩] bareFiles).map
      fun r => r.1) = some (.error (.obstacle (.refused .embeddedNul "\x00"))) := by
    decide +kernel
  obtain ⟨made, hmade, hmade_get⟩ := Option.map_eq_some_iff.mp hmake
  obtain ⟨copied, hcopied, hcopied_get⟩ := Option.map_eq_some_iff.mp hcopy
  obtain ⟨refused, hrefused, hresult⟩ := Option.map_eq_some_iff.mp hnul
  refine ⟨plain_of_empty, rfl, by decide +kernel, ?_, ?_, ?_⟩
  · rw [materialize, run_of_runWithin hmade]
    exact hmade_get
  · rw [copyTree, run_of_runWithin hcopied]
    exact hcopied_get
  · rw [materialize, run_of_runWithin hrefused]
    exact hresult

end Walk

end Scaffold
