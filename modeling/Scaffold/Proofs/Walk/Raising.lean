import Scaffold.Proofs.Expr.Straying
import Scaffold.Proofs.Walk.Directories
import Scaffold.Proofs.Walk.Making

/-! Which failures leave a walk. What the file system refuses is blamed on the entry that is
visited, but for a path with a NUL. -/

namespace Scaffold

namespace Attempt

variable {σ α β : Type}

def Raises (x : Except Failure α × σ) (E : Failure → Prop) : Prop :=
  ∀ e, x.1 = .error e → E e

section

variable {a : Attempt σ α} {f : α → Attempt σ β} {s t : σ} {E E' : Failure → Prop}

lemma raises_ok (x : α) (s : σ) : Raises ((.ok x, s) : Except Failure α × σ) E := fun e he => by
  cases he

lemma raises_error {e : Failure} (h : E e) : Raises ((.error e, s) : Except Failure α × σ) E :=
  fun d hd => by
    obtain rfl := Except.error.inj hd
    exact h

lemma Raises.imp {x : Except Failure α × σ} (h : Raises x E) (hE : ∀ e, E e → E' e) :
    Raises x E' :=
  fun e he => hE e (h e he)

lemma Raises.bind (h : Raises (a s) E) (hf : ∀ x t, a s = (.ok x, t) → Raises (f x t) E) :
    Raises ((a >>= f) s) E := by
  rw [bind_apply]
  rcases ha : a s with ⟨e | x, t⟩
  · rw [ha] at h
    exact raises_error (h e rfl)
  · exact hf x t ha

lemma Raises.mapFailure {g : Failure → Failure} (h : Raises (a s) E) (hg : ∀ e, E e → E' (g e)) :
    Raises (Attempt.mapFailure g a s) E' := by
  rw [Attempt.mapFailure]
  rcases ha : a s with ⟨e | x, t⟩
  · rw [ha] at h
    exact raises_error (hg e (h e rfl))
  · exact raises_ok x t

lemma mapFailure_eq_ok {g : Failure → Failure} {x : α} (h : mapFailure g a s = (.ok x, t)) :
    a s = (.ok x, t) := by
  rw [mapFailure] at h
  rcases ha : a s with ⟨e | y, u⟩
  · rw [ha] at h
    cases h
  · rw [ha] at h
    exact h

end

end Attempt

namespace Failure

def isOfWalk : Failure → Bool
  | .copyFailed .. | .materializeFailed .. | .notText .. | .unsupportedKind _
  | .noTemplateDirectory _ | .outsideTemplate _ | .badFileName .. | .overDirectory _ => true
  | _ => false

lemma isForeseen_of_isOfWalk {e : Failure} (h : e.isOfWalk = true) : e.isForeseen = true := by
  cases e with
  | tooDeep | obstacle => cases h
  | _ => rfl

end Failure

def RefusesNul (ps : List Path) (e : Failure) : Prop :=
  ∃ p ∈ ps, p.hasNul = true ∧ e = .obstacle (.refused .embeddedNul p.text)

inductive Meets (ps : List Path) : Failure → Prop
  | ofWalk {e : Failure} (h : e.isOfWalk = true) : Meets ps e
  | system {o : Obstacle} (h : o.isSystem = true) : Meets ps (.obstacle o)
  | nul {e : Failure} (h : RefusesNul ps e) : Meets ps e

lemma RefusesNul.isForeseen {ps : List Path} {e : Failure} (h : RefusesNul ps e) :
    e.isForeseen = false := by
  obtain ⟨p, -, -, rfl⟩ := h
  rfl

lemma meets_of_ne_nul {ps : List Path} {r : Refusal} (hr : r ≠ .embeddedNul) (text : String) :
    Meets ps (.obstacle (.refused r text)) := by
  apply Meets.system
  cases r with
  | embeddedNul => exact absurd rfl hr
  | _ => rfl

lemma meets_refused {ps : List Path} {p : Path} {r : Refusal} (hp : p ∈ ps)
    (h : r = .embeddedNul → p.hasNul = true) : Meets ps (.obstacle (.refused r p.text)) := by
  by_cases hr : r = .embeddedNul
  · subst hr
    exact .nul ⟨p, hp, h rfl, rfl⟩
  · exact meets_of_ne_nul hr p.text

namespace FileAction

open Attempt FileSystem

section

variable {fs : FileSystem} {p source dest : Path} {ps : List Path}

lemma ask_raises {α : Type} {question : FileSystem → Path → Except Refusal α} (hp : p ∈ ps)
    (h : question fs p = .error .embeddedNul → p.hasNul = true) :
    Raises (ask question p fs) (Meets ps) := by
  rw [ask]
  cases hq : question fs p with
  | ok a => exact raises_ok a fs
  | error r => exact raises_error (meets_refused hp fun hr => h (hr ▸ hq))

lemma change_raises {operation : FileSystem → Path → Except Refusal FileSystem} (hp : p ∈ ps)
    (h : operation fs p = .error .embeddedNul → p.hasNul = true) :
    Raises (change operation p fs) (Meets ps) := by
  rw [change]
  cases hq : operation fs p with
  | ok fs' => exact raises_ok () fs'
  | error r => exact raises_error (meets_refused hp fun hr => h (hr ▸ hq))

lemma makeOneDirectory_refused {e : Failure} (h : (makeOneDirectory p fs).1 = .error e) :
    ∃ r, e = .obstacle (.refused r p.text) ∧ (r = .embeddedNul → p.hasNul = true) := by
  rw [makeOneDirectory] at h
  cases hm : fs.makeDirectory p with
  | ok fs' =>
    rw [hm] at h
    cases h
  | error r =>
    have hown : ∃ r', Failure.obstacle (.refused r p.text) = .obstacle (.refused r' p.text) ∧
        (r' = .embeddedNul → p.hasNul = true) :=
      ⟨r, rfl, fun hr => makeDirectory_nul (hr ▸ hm)⟩
    rw [hm] at h
    by_cases hr : r = .noEntry
    · simp only [hr, if_true] at h hown
      obtain rfl := Except.error.inj h
      exact hown
    simp only [hr, if_false] at h
    rcases hd : fs.isDirectory p with r' | (_ | _)
    · rw [hd] at h
      obtain rfl := Except.error.inj h
      exact ⟨r', rfl, fun hr' => absurd (hr' ▸ hd) (ask_ne_nul _ _)⟩
    · rw [hd] at h
      obtain rfl := Except.error.inj h
      exact hown
    · rw [hd] at h
      cases h

lemma makeDirectories_refused {e : Failure} (h : (makeDirectories p fs).1 = .error e) :
    ∃ r q, e = .obstacle (.refused r q.text) ∧ (r = .embeddedNul → q = p ∧ p.hasNul = true) := by
  have hone {q : Path} {fs : FileSystem} {e : Failure} (h : (makeOneDirectory q fs).1 = .error e) :
      ∃ r q', e = .obstacle (.refused r q'.text) ∧
        (r = .embeddedNul → q' = q ∧ q.hasNul = true) := by
    obtain ⟨r, he, hr⟩ := makeOneDirectory_refused h
    exact ⟨r, q, he, fun hn => ⟨rfl, hr hn⟩⟩
  obtain ⟨anchor, names⟩ := p
  rw [makeDirectories] at h
  induction names generalizing fs with
  | nil => exact hone h
  | cons n names ih =>
    simp only [makeDirectoriesAt] at h
    split at h
    · rename_i hno
      have hclean : Path.hasNul ⟨anchor, n :: names⟩ = false := by
        by_contra hn
        rw [makeDirectory, find_of_nul (by simpa using hn)] at hno
        cases hno
      rw [bind_apply] at h
      rcases hm : makeDirectoriesAt anchor names fs with ⟨d | u, fs'⟩
      · rw [hm] at h
        obtain rfl := Except.error.inj h
        obtain ⟨r, q, he, hr⟩ := ih (congrArg Prod.fst hm)
        refine ⟨r, q, he, fun hn => ?_⟩
        have habove : Path.hasNul ⟨anchor, names⟩ = true := (hr hn).2
        rw [Path.hasNul, List.any_cons, Bool.or_eq_false_iff] at hclean
        rw [Path.hasNul, hclean.2] at habove
        cases habove
      · rw [hm] at h
        exact hone h
    · exact hone h

lemma makeDirectories_raises (hp : p ∈ ps) : Raises (makeDirectories p fs) (Meets ps) := by
  intro e he
  obtain ⟨r, q, rfl, hr⟩ := makeDirectories_refused he
  by_cases hn : r = .embeddedNul
  · obtain ⟨rfl, hq⟩ := hr hn
    exact meets_refused hp fun _ => hq
  · exact meets_of_ne_nul hn q.text

lemma fail_raises {α : Type} {e : Failure} (h : e.isOfWalk = true) :
    Raises ((fail e : FileAction α) fs) (Meets ps) :=
  raises_error (.ofWalk h)

lemma makeRoom_raises (hd : dest ∈ ps) : Raises (makeRoom dest fs) (Meets ps) := by
  have hgone (fs : FileSystem) : Raises (change removeFile dest fs) (Meets ps) :=
    change_raises hd removeFile_nul
  refine (ask_raises hd fun h => absurd h (ask_ne_nul _ _)).bind fun b fs' _ => ?_
  cases b with
  | true => exact hgone fs'
  | false =>
    refine (ask_raises hd fun h => absurd h (ask_ne_nul _ _)).bind fun b fs' _ => ?_
    cases b with
    | true => exact hgone fs'
    | false =>
      refine (ask_raises hd fun h => absurd h (ask_ne_nul _ _)).bind fun b fs' _ => ?_
      cases b with
      | true => exact fail_raises rfl
      | false => exact raises_ok () fs'

lemma copyLink_raises (hs : source ∈ ps) (hd : dest ∈ ps) :
    Raises (copyLink source dest fs) (Meets ps) :=
  (makeRoom_raises hd).bind fun _ _ _ => (ask_raises hs readLink_nul).bind fun _ _ _ =>
    change_raises hd makeLink_nul

lemma modeAt_nul (h : modeAt fs p = .error .embeddedNul) : p.hasNul = true := by
  grind [modeAt, targetAt_nul]

lemma isPipe_ne_error (fs : FileSystem) (p : Path) (r : Refusal) : isPipe fs p ≠ .error r := by
  rw [isPipe]
  split <;> simp

lemma copyMode_raises (hs : source ∈ ps) (hd : dest ∈ ps) :
    Raises (copyMode source dest fs) (Meets ps) :=
  (ask_raises hs modeAt_nul).bind fun _ _ _ => change_raises hd setMode_nul

lemma copyFile_raises (hs : source ∈ ps) (hd : dest ∈ ps) :
    Raises (copyFile source dest fs) (Meets ps) := by
  refine (makeRoom_raises hd).bind fun _ _ _ =>
    (ask_raises hd fun h => absurd h (isPipe_ne_error _ _ _)).bind fun b fs' _ => ?_
  cases b with
  | true => exact raises_error (.system rfl)
  | false =>
    exact (ask_raises hs readFile_nul).bind fun _ _ _ =>
      (change_raises hd writeFile_nul).bind fun _ _ _ => copyMode_raises hs hd

end

end FileAction

namespace Walk

open Attempt FileAction FileSystem

def pending (p : Pair) (out : Path) (names : List Name) (rest : List Pair) : List Pair :=
  if p.source.names.length < pathLimit then names.map (p.child out) ++ rest else rest

section

variable {visit : Visit} {p : Pair} {out : Path} {names : List Name} {rest : List Pair}
  {fs fs' : FileSystem}

lemma pending_nil (p : Pair) (out : Path) (rest : List Pair) : pending p out [] rest = rest := by
  rw [pending]
  split <;> rfl

lemma pending_append (p : Pair) (out : Path) (names : List Name) (rest work : List Pair) :
    pending p out names (rest ++ work) = pending p out names rest ++ work := by
  rw [pending, pending]
  split
  · rw [List.append_assoc]
  · rfl

lemma mem_pending {q : Pair} (h : q ∈ pending p out names rest) :
    (∃ n ∈ names, q = p.child out n) ∨ q ∈ rest := by
  rw [pending] at h
  split at h
  · rcases List.mem_append.mp h with h | h
    · obtain ⟨n, hn, rfl⟩ := List.mem_map.mp h
      exact .inl ⟨n, hn, rfl⟩
    · exact .inr h
  · exact .inr h

lemma run_of_visit (h : visit p fs = (.ok (out, names), fs')) (rest : List Pair) :
    run visit (p :: rest) fs = run visit (pending p out names rest) fs' := by
  rw [run, h, pending]
  dsimp only
  split <;> rfl

lemma run_append (visit : Visit) (a b : List Pair) (fs : FileSystem) :
    run visit (a ++ b) fs = (run visit a >>= fun _ => run visit b : FileAction Unit) fs := by
  induction a, fs using run.induct visit with
  | case1 fs => rw [List.nil_append, bind_of_ok (run_nil visit fs)]
  | case2 fs p rest e fs' hp =>
    rw [bind_of_error (run_of_error hp rest), List.cons_append, run_of_error hp]
  | case3 fs p rest out names fs' hp hl ih | case4 fs p rest out names fs' hp hl ih =>
    rw [List.cons_append, run_of_visit hp, pending_append, bind_apply, run_of_visit hp,
      ← bind_apply]
    simp only [pending, hl, if_true, if_false]
    exact ih

end

def Clean (p : Pair) : Prop :=
  p.source.hasNul = false ∧ p.dest.hasNul = false

section

variable {fs fs' : FileSystem} {p : Pair} {root source dest out : Path} {ps : List Path}
  {names : List Name} {visit : Visit} {E : Failure → Prop}

lemma openDirectory_raises (hs : source ∈ ps) (hd : dest ∈ ps) :
    Raises (openDirectory source dest fs) (Meets ps) :=
  (makeDirectories_raises hd).bind fun _ _ _ => (ask_raises hs list_nul).bind fun _ fs' _ =>
    raises_ok _ fs'

lemma openDirectory_clean (h : openDirectory source dest fs = (.ok (out, names), fs')) :
    out = dest ∧ source.hasNul = false ∧ dest.hasNul = false ∧
      ∀ n ∈ names, n.1.toList.contains '\x00' = false := by
  obtain ⟨_, fs₁, hmake, hask⟩ := bind_eq_ok h
  obtain ⟨ns, fs₂, hlist, hend⟩ := bind_eq_ok hask
  obtain ⟨rfl, hlist⟩ := ask_state hlist
  cases hend
  obtain ⟨D, hleads⟩ := makeDirectories_leads hmake
  obtain ⟨hs, hnames⟩ := isEntryName_of_list hlist
  exact ⟨rfl, hs, hasNul_of_find hleads, fun n hn => ((isEntryName_iff n).mp (hnames n hn)).2.1⟩

lemma run_raises {I : Pair → Prop} (hv : ∀ p fs, I p → Raises (visit p fs) E)
    (hc : ∀ p fs out names fs', I p → visit p fs = (.ok (out, names), fs') →
      ∀ n ∈ names, I (p.child out n)) :
    (work : List Pair) → (∀ p ∈ work, I p) → (fs : FileSystem) → Raises (run visit work fs) E := by
  intro work hw fs
  induction work, fs using run.induct visit with
  | case1 fs =>
    rw [run]
    exact raises_ok () fs
  | case2 fs p rest e fs' hp =>
    have hfail := hv p fs (hw p List.mem_cons_self)
    rw [hp] at hfail
    rw [run_of_error hp]
    exact raises_error (hfail e rfl)
  | case3 fs p rest out names fs' hp hl ih | case4 fs p rest out names fs' hp hl ih =>
    have hpending : ∀ q ∈ pending p out names rest, I q := by
      intro q hq
      rcases mem_pending hq with ⟨n, hn, rfl⟩ | hq
      · exact hc p fs out names fs' (hw p List.mem_cons_self) hp n hn
      · exact hw q (List.mem_cons_of_mem p hq)
    rw [run_of_visit hp]
    simp only [pending, hl, if_true, if_false] at hpending ⊢
    exact ih hpending

lemma copyEntry_raises (p : Pair) (e : Entry) (fs : FileSystem) :
    Raises (copyEntry p e fs) (Meets [p.source, p.dest]) := by
  have hs : p.source ∈ [p.source, p.dest] := by simp
  have hd : p.dest ∈ [p.source, p.dest] := by simp
  cases e with
  | link target => exact (copyLink_raises hs hd).bind fun _ fs' _ => raises_ok _ fs'
  | file bytes mode => exact (copyFile_raises hs hd).bind fun _ fs' _ => raises_ok _ fs'
  | directory => exact openDirectory_raises hs hd
  | pipe => exact fail_raises rfl

lemma openDirectory_child (h : openDirectory source dest fs = (.ok (out, names), fs')) :
    ∀ n ∈ names, Clean ⟨source.child n, out.child n⟩ := by
  obtain ⟨rfl, hs, hd, hnames⟩ := openDirectory_clean h
  rw [Path.hasNul] at hs hd
  intro n hn
  simp only [Clean, Path.child, Path.hasNul, List.any_cons, hnames n hn, hs, hd, Bool.false_or,
    and_self]

lemma copyEntry_children {e : Entry} (h : copyEntry p e fs = (.ok (out, names), fs')) :
    names = [] ∨ openDirectory p.source p.dest fs = (.ok (out, names), fs') := by
  cases e with
  | link | file =>
    obtain ⟨_, _, -, h⟩ := bind_eq_ok h
    cases h
    exact .inl rfl
  | pipe => cases h
  | directory => exact .inr h

lemma copyVisit_raises (p : Pair) (fs : FileSystem) : Raises (copyVisit p fs)
    fun e => e.isOfWalk = true ∨ RefusesNul [p.source, p.dest] e := by
  have hraw : Raises ((FileAction.ask FileSystem.entryAt p.source >>= copyEntry p) fs)
      (Meets [p.source, p.dest]) :=
    (ask_raises (by simp) entryAt_nul).bind fun e fs' _ => copyEntry_raises p e fs'
  have hvisit : copyVisit p fs =
      mapFailure (blameCopy p) (FileAction.ask FileSystem.entryAt p.source >>= copyEntry p) fs := by
    rw [copyVisit, mapFailure, mapFailure, bind_apply, bind_apply]
    rcases FileAction.ask FileSystem.entryAt p.source fs with ⟨d | e, fs'⟩
    · rfl
    · cases e <;> rfl
  rw [hvisit]
  refine hraw.mapFailure fun e he => ?_
  cases he with
  | ofWalk h =>
    cases e with
    | obstacle => cases h
    | _ => exact .inl h
  | system h =>
    rw [blameCopy, if_pos h]
    exact .inl rfl
  | nul h =>
    obtain ⟨q, hq, hn, rfl⟩ := h
    exact .inr ⟨q, hq, hn, rfl⟩

lemma copyVisit_children (h : copyVisit p fs = (.ok (out, names), fs')) :
    p.source.byteLength ≤ pathLimit ∧
      (names = [] ∨ ∃ fs₁, openDirectory p.source p.dest fs₁ = (.ok (out, names), fs')) := by
  obtain ⟨e, fs₁, hask, hentry⟩ := bind_eq_ok (mapFailure_eq_ok h)
  have hcopy : copyEntry p e fs₁ = (.ok (out, names), fs') := by cases e <;> exact hentry
  exact ⟨short_of_entryAt (ask_state hask).2, (copyEntry_children hcopy).imp id fun h => ⟨_, h⟩⟩

lemma copyVisit_clean (h : copyVisit p fs = (.ok (out, names), fs')) :
    ∀ n ∈ names, Clean (p.child out n) := by
  obtain ⟨-, rfl | ⟨fs₁, hopen⟩⟩ := copyVisit_children h
  · exact List.forall_mem_nil _
  · exact openDirectory_child hopen

lemma copyTree_raises (source dest : Path) (fs : FileSystem) :
    Raises (copyTree source dest fs)
      fun e => e.isOfWalk = true ∨ RefusesNul [source, dest] e := by
  let I : Pair → Prop := fun p => (p.source.hasNul = true → p.source = source) ∧
    (p.dest.hasNul = true → p.dest = dest)
  refine run_raises (I := I) (fun p fs hI => ?_) (fun p fs out names fs' _ hvisit n hn => ?_) _
    (fun p hp => ?_) fs
  · refine (copyVisit_raises p fs).imp fun e he => he.imp id fun ⟨q, hq, hnul, he⟩ => ?_
    rcases List.mem_pair.mp hq with rfl | rfl
    · exact ⟨_, by simp [← hI.1 hnul], hnul, he⟩
    · exact ⟨_, by simp [← hI.2 hnul], hnul, he⟩
  · obtain ⟨hs, hd⟩ := copyVisit_clean hvisit n hn
    exact ⟨fun h => absurd h (by simp [hs]), fun h => absurd h (by simp [hd])⟩
  · obtain rfl := List.mem_singleton.mp hp
    exact ⟨fun _ => rfl, fun _ => rfl⟩

inductive Raw (ps : List Path) : Failure → Prop
  | meets {e : Failure} (h : Meets ps e) : Raw ps e
  | foreseen {e : Failure} (h : e.isForeseen = true) : Raw ps e
  | undecodable (f : Text.Utf8.Fault) : Raw ps (.obstacle (.undecodable f))
  | tooDeep : Raw ps .tooDeep

lemma raw_of_expanded {ctx : Context} {text : String} {e : Failure}
    (h : Expr.expandString fs ctx text = .error e) : Raw ps e := by
  rcases Expr.expandString_failure h with he | rfl | ⟨q, -, rfl⟩
  · exact .foreseen he
  · exact .tooDeep
  · exact .meets (.system rfl)

lemma expandInto_raises {ctx : Context} (hs : source ∈ ps) (hd : dest ∈ ps) :
    Raises (expandInto source dest ctx fs) (Raw ps) := by
  refine ((ask_raises hs readFile_nul).imp fun _ => .meets).bind fun _ _ _ =>
    ((change_raises hd writeFile_nul).imp fun _ => .meets).bind fun _ _ _ =>
    ((ask_raises hs readFile_nul).imp fun _ => .meets).bind fun bytes fs' _ => ?_
  cases Text.Utf8.decode bytes with
  | error f => exact raises_error (.undecodable f.inStream)
  | ok text =>
    dsimp only
    rw [writeRendering]
    cases hw : fs'.writeFile dest
        (String.ofList (Expr.expand fs' ctx text.toList).text).toUTF8 with
    | error r => exact raises_error (.meets (meets_refused hd fun hr => writeFile_nul (hr ▸ hw)))
    | ok fs'' =>
      intro e he
      have hresult : (Expr.expand fs' ctx text.toList).result = .error e := he
      have hstring : Expr.expandString fs' ctx text = .error e := by
        rw [Expr.expandString, hresult]
        rfl
      exact raw_of_expanded hstring

lemma handle_meets {ctx : Context} {action : Action} {e : Entry}
    (hmake : action ≠ .make ∨ ∀ bytes mode, e ≠ .file bytes mode) :
    Raises (handle ctx source action dest e fs) (Meets [source, dest]) := by
  by_cases hdir : e = .directory
  · subst hdir
    by_cases hc : action = .copy
    · subst hc
      refine Raises.bind ((copyTree_raises source dest fs).imp fun e he => ?_) fun _ fs' _ =>
        raises_ok _ fs'
      exact he.elim .ofWalk .nul
    · rw [handle_of_descent hc]
      exact copyEntry_raises ⟨source, dest⟩ .directory fs
  · rw [handle_of_leaf hdir hmake]
    exact copyEntry_raises ⟨source, dest⟩ e fs

lemma handle_raises {ctx : Context} {action : Action} (e : Entry) :
    Raises (handle ctx source action dest e fs) (Raw [source, dest]) := by
  have hs : source ∈ [source, dest] := by simp
  have hd : dest ∈ [source, dest] := by simp
  by_cases hmake : action ≠ .make ∨ ∀ bytes mode, e ≠ .file bytes mode
  · exact (handle_meets hmake).imp fun _ => .meets
  · obtain ⟨rfl, bytes, mode, rfl⟩ : action = .make ∧ ∃ bytes mode, e = .file bytes mode := by
      simpa using hmake
    exact ((makeRoom_raises hd).imp fun _ => .meets).bind fun _ _ _ =>
      (expandInto_raises hs hd).bind fun _ _ _ =>
      ((copyMode_raises hs hd).imp fun _ => .meets).bind fun _ fs' _ => raises_ok _ fs'

lemma effective_spec (fs : FileSystem) (ctx : Context) (rule : Option FileRule) (dest : Path) :
    match effective fs ctx rule dest with
    | .error e => e.isForeseen = true ∨ ∃ text, Expr.expandString fs ctx text = .error e
    | .ok none => True
    | .ok (some (_, q)) => q = dest ∨ ∃ k, q = dest.withName k := by
  rcases rule with _ | ⟨action, text⟩
  · exact .inl rfl
  by_cases ha : action = .ignore
  · subst ha
    trivial
  by_cases ht : text = ""
  · subst ht
    cases action with
    | ignore => trivial
    | auto | copy | make => exact .inl rfl
  rw [effective_of_text fs ctx dest ha ht]
  cases hx : Expr.expandString fs ctx text with
  | error e => exact .inr ⟨text, hx⟩
  | ok s =>
    dsimp only
    split_ifs
    · trivial
    · exact .inl rfl
    · cases Name.ofString? s with
      | none => exact .inl rfl
      | some k => exact .inr ⟨k, rfl⟩

end

def Escapes (e : Failure) : Prop :=
  e = .tooDeep ∨ ∃ (q : Path) (k : Name), k.1.toList.contains '\x00' = true ∧
    e = .obstacle (.refused .embeddedNul (q.withName k).text)

section

variable {m : Manifest} {ctx : Context} {root source dest out : Path} {p : Pair} {names : List Name}
  {fs fs' : FileSystem} {e : Failure}

lemma Escapes.isForeseen (h : Escapes e) : e.isForeseen = false := by
  rcases h with rfl | ⟨q, k, -, rfl⟩ <;> rfl

lemma escapes_of_refused {q : Path} (hd : dest.hasNul = false)
    (hq : q = dest ∨ ∃ k, q = dest.withName k) (hs : source.hasNul = false)
    (h : RefusesNul [source, q] e) : Escapes e := by
  obtain ⟨q', hq', hnul, rfl⟩ := h
  rcases List.mem_pair.mp hq' with rfl | rfl
  · rw [hs] at hnul
    cases hnul
  rcases hq with rfl | ⟨k, rfl⟩
  · rw [hd] at hnul
    cases hnul
  · refine .inr ⟨dest, k, ?_, rfl⟩
    have hparent : dest.parent.hasNul = false := by
      rw [Path.hasNul, List.any_eq_false] at hd ⊢
      exact fun n hn => hd n (List.mem_of_mem_tail hn)
    rw [Path.withName, Path.child, Path.hasNul, List.any_cons, Bool.or_eq_true] at hnul
    rw [Path.hasNul] at hparent
    exact hnul.resolve_right (Bool.eq_false_iff.mp hparent)

lemma blamed_of_meets {ps : List Path} (he : Meets ps e) (p : Pair) :
    (blameEntry p e).isOfWalk = true ∨ RefusesNul ps e := by
  cases he with
  | nul he => exact .inr he
  | ofWalk he =>
    cases e with
    | obstacle => cases he
    | _ => exact .inl he
  | @system o he =>
    left
    rw [blameEntry]
    · rw [if_pos he]
      rfl
    · rintro f rfl
      cases he

lemma blamed_of_raw {q : Path} (h : Clean p) (hq : q = p.dest ∨ ∃ k, q = p.dest.withName k)
    (he : Raw [p.source, q] e) : (blameEntry p e).isForeseen = true ∨ Escapes e := by
  cases he with
  | undecodable f => exact .inl rfl
  | tooDeep => exact .inr (.inl rfl)
  | foreseen he =>
    cases e with
    | tooDeep | obstacle => cases he
    | _ => exact .inl rfl
  | meets he =>
    exact (blamed_of_meets he p).imp Failure.isForeseen_of_isOfWalk (escapes_of_refused h.2 hq h.1)

lemma visitRoot_raises (p : Pair) (fs : FileSystem) :
    Raises (visitRoot p fs) (Meets [p.source, p.dest]) := by
  refine (ask_raises (by simp) fun hn => absurd hn (ask_ne_nul _ _)).bind fun b fs' _ => ?_
  cases b with
  | false => exact raises_error (.ofWalk rfl)
  | true => exact openDirectory_raises (by simp) (by simp)

lemma visitEntry_raises (h : Clean p) : Raises (visitEntry m ctx root p fs)
    fun e => (blameEntry p e).isForeseen = true ∨ Escapes e := by
  have hask : Raises (FileAction.ask FileSystem.entryAt p.source fs) (Meets [p.source, p.dest]) :=
    ask_raises (by simp) entryAt_nul
  refine (hask.imp fun e he => blamed_of_raw h (.inl rfl) (.meets he)).bind fun entry fs₁ _ => ?_
  refine Raises.bind (E := fun e => (blameEntry p e).isForeseen = true ∨ Escapes e) ?_
    fun rel fs₂ _ => ?_
  · rw [pathBelow]
    cases p.source.relativeTo? root with
    | none => exact raises_error (.inl rfl)
    | some q => exact raises_ok _ fs₁
  by_cases hm : m.lookup rel = none ∧ rel = Manifest.fileName
  · rw [if_pos hm]
    exact raises_ok _ fs₂
  rw [if_neg hm]
  have hspec := effective_spec fs₂ ctx (m.lookup rel) p.dest
  rw [bind_apply, look]
  cases heff : effective fs₂ ctx (m.lookup rel) p.dest with
  | error d =>
    rw [heff] at hspec
    rcases hspec with hd | ⟨text, hx⟩
    · exact raises_error (blamed_of_raw h (.inl rfl) (.foreseen hd))
    · exact raises_error (blamed_of_raw h (.inl rfl) (raw_of_expanded hx))
  | ok chosen =>
    rw [heff] at hspec
    rcases chosen with _ | ⟨action, q⟩
    · exact raises_ok _ fs₂
    · exact (handle_raises entry).imp fun e he => blamed_of_raw h hspec he

lemma materializeVisit_raises (h : Clean p) : Raises (materializeVisit m ctx root p fs)
    fun e => e.isForeseen = true ∨ Escapes e := by
  have hkeep (e : Failure) (he : (blameEntry p e).isForeseen = true ∨ Escapes e) :
      (blameEntry p e).isForeseen = true ∨ Escapes (blameEntry p e) := by
    refine he.imp id fun he => ?_
    rcases he with rfl | ⟨q, k, hk, rfl⟩
    · exact .inl rfl
    · exact .inr ⟨q, k, hk, rfl⟩
  rw [materializeVisit]
  by_cases hroot : p.source = root
  · rw [if_pos hroot]
    exact (visitRoot_raises p fs).mapFailure fun e he =>
      hkeep e (blamed_of_raw h (.inl rfl) (.meets he))
  · rw [if_neg hroot]
    exact (visitEntry_raises h).mapFailure hkeep

lemma handle_children {action : Action} {entry : Entry}
    (h : handle ctx source action dest entry fs = (.ok (out, names), fs')) :
    names = [] ∨ openDirectory source dest fs = (.ok (out, names), fs') := by
  by_cases hdir : entry = .directory ∧ action ≠ .copy
  · obtain ⟨rfl, hc⟩ := hdir
    rw [handle_of_descent hc] at h
    exact .inr h
  -- All else has no children.
  left
  cases entry with
  | pipe => cases h
  | link target =>
    obtain ⟨_, _, -, h⟩ := bind_eq_ok h
    cases h
    rfl
  | file bytes mode =>
    rw [handle] at h
    by_cases hm : action = .make
    · rw [if_pos hm] at h
      obtain ⟨_, _, -, h⟩ := bind_eq_ok h
      obtain ⟨_, _, -, h⟩ := bind_eq_ok h
      obtain ⟨_, _, -, h⟩ := bind_eq_ok h
      cases h
      rfl
    · rw [if_neg hm] at h
      obtain ⟨_, _, -, h⟩ := bind_eq_ok h
      cases h
      rfl
  | directory =>
    have hc : action = .copy := by simpa using hdir
    rw [handle, if_pos hc] at h
    obtain ⟨_, _, -, h⟩ := bind_eq_ok h
    cases h
    rfl

lemma materializeVisit_children (h : materializeVisit m ctx root p fs = (.ok (out, names), fs')) :
    p.source.byteLength ≤ pathLimit ∧
      (names = [] ∨ ∃ dest fs₁, openDirectory p.source dest fs₁ = (.ok (out, names), fs')) := by
  have hvisit := mapFailure_eq_ok h
  by_cases hroot : p.source = root
  · rw [if_pos hroot] at hvisit
    obtain ⟨b, fs₁, hask, hopen⟩ := bind_eq_ok hvisit
    cases b with
    | false => cases hopen
    | true =>
      obtain ⟨D, hleads⟩ := leads_of_isDirectory (ask_state hask).2
      exact ⟨(find_eq_walk hleads).2.1, .inr ⟨_, _, hopen⟩⟩
  · rw [if_neg hroot] at hvisit
    obtain ⟨entry, fs₁, hask, hrest⟩ := bind_eq_ok hvisit
    refine ⟨short_of_entryAt (ask_state hask).2, ?_⟩
    obtain ⟨rel, fs₂, -, hrest⟩ := bind_eq_ok hrest
    by_cases hm : m.lookup rel = none ∧ rel = Manifest.fileName
    · rw [if_pos hm] at hrest
      cases hrest
      exact .inl rfl
    · rw [if_neg hm] at hrest
      obtain ⟨chosen, fs₃, -, hrest⟩ := bind_eq_ok hrest
      rcases chosen with _ | ⟨action, q⟩
      · cases hrest
        exact .inl rfl
      · exact (handle_children hrest).imp id fun h => ⟨_, _, h⟩

lemma materializeVisit_clean (h : materializeVisit m ctx root p fs = (.ok (out, names), fs')) :
    ∀ n ∈ names, Clean (p.child out n) := by
  obtain ⟨-, rfl | ⟨dest, fs₁, hopen⟩⟩ := materializeVisit_children h
  · exact List.forall_mem_nil _
  · exact openDirectory_child hopen

lemma materialize_raises (m : Manifest) (ctx : Context) (fs : FileSystem)
    (hroot : root.hasNul = false) (hdest : dest.hasNul = false) :
    Raises (materialize m ctx root dest fs) fun e => e.isForeseen = true ∨ Escapes e :=
  run_raises (I := Clean) (fun _ _ => materializeVisit_raises)
    (fun _ _ _ _ _ _ hvisit => materializeVisit_clean hvisit) _
    (fun p hp => by
      obtain rfl := List.mem_singleton.mp hp
      exact ⟨hroot, hdest⟩) fs

end

end Walk

end Scaffold
