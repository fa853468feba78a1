import Scaffold.Proofs.Walk.Raising

namespace Scaffold

def Failure.isOutside : Failure → Bool
  | .outsideTemplate _ => true
  | _ => false

def StaysInside {α σ : Type} (x : Except Failure α × σ) : Prop :=
  Attempt.Raises x fun e => e.isOutside = false

namespace FileAction

open Attempt FileSystem

section

variable {α : Type} {fs : FileSystem} {p source dest : Path} {ctx : Context}

lemma ask_inside (question : FileSystem → Path → Except Refusal α) (p : Path) (fs : FileSystem) :
    StaysInside (ask question p fs) := by
  rw [ask]
  cases question fs p with
  | ok a => exact raises_ok a fs
  | error r => exact raises_error rfl

lemma change_inside (operation : FileSystem → Path → Except Refusal FileSystem) (p : Path)
    (fs : FileSystem) : StaysInside (change operation p fs) := by
  rw [change]
  cases operation fs p with
  | ok fs' => exact raises_ok () fs'
  | error r => exact raises_error rfl

lemma makeDirectories_inside (p : Path) (fs : FileSystem) : StaysInside (makeDirectories p fs) := by
  intro e he
  obtain ⟨r, q, rfl, -⟩ := makeDirectories_refused he
  rfl

lemma makeRoom_inside (dest : Path) (fs : FileSystem) : StaysInside (makeRoom dest fs) := by
  refine (ask_inside isLink dest fs).bind fun link fs₁ _ => ?_
  cases link with
  | true => exact change_inside removeFile dest fs₁
  | false =>
    refine (ask_inside isFile dest fs₁).bind fun file fs₂ _ => ?_
    cases file with
    | true => exact change_inside removeFile dest fs₂
    | false =>
      refine (ask_inside isDirectory dest fs₂).bind fun dir fs₃ _ => ?_
      cases dir with
      | true => exact raises_error rfl
      | false => exact raises_ok () fs₃

lemma copyLink_inside (source dest : Path) (fs : FileSystem) :
    StaysInside (copyLink source dest fs) :=
  (makeRoom_inside dest fs).bind fun _ _ _ => (ask_inside readLink source _).bind fun _ _ _ =>
    change_inside _ dest _

lemma copyMode_inside (source dest : Path) (fs : FileSystem) :
    StaysInside (copyMode source dest fs) :=
  (ask_inside modeAt source fs).bind fun _ _ _ => change_inside _ dest _

lemma copyFile_inside (source dest : Path) (fs : FileSystem) :
    StaysInside (copyFile source dest fs) := by
  refine (makeRoom_inside dest fs).bind fun _ _ _ =>
    (ask_inside isPipe dest _).bind fun pipe fs₁ _ => ?_
  cases pipe with
  | true => exact raises_error rfl
  | false =>
    exact (ask_inside readFile source fs₁).bind fun _ _ _ =>
      (change_inside _ dest _).bind fun _ _ _ => copyMode_inside source dest _

lemma expandString_inside {text : String} {e : Failure}
    (h : Expr.expandString fs ctx text = .error e) : e.isOutside = false := by
  rcases Expr.isOfExpression_or_strays h with he | rfl | ⟨p, -, rfl⟩
  · cases e with
    | malformed | unknownFunction | surplusArguments | unreadable => rfl
    | _ => cases he
  · rfl
  · rfl

lemma expandInto_inside (source dest : Path) (ctx : Context) (fs : FileSystem) :
    StaysInside (expandInto source dest ctx fs) := by
  refine (ask_inside readFile source fs).bind fun _ _ _ =>
    (change_inside _ dest _).bind fun _ _ _ =>
    (ask_inside readFile source _).bind fun bytes fs₁ _ => ?_
  cases Text.Utf8.decode bytes with
  | error f => exact raises_error rfl
  | ok text =>
    dsimp only
    rw [writeRendering]
    cases fs₁.writeFile dest (String.ofList (Expr.expand fs₁ ctx text.toList).text).toUTF8 with
    | error r => exact raises_error rfl
    | ok fs₂ =>
      intro e he
      have hresult : (Expr.expand fs₁ ctx text.toList).result = .error e := he
      have hstring : Expr.expandString fs₁ ctx text = .error e := by
        rw [Expr.expandString, hresult]
        rfl
      exact expandString_inside hstring

end

end FileAction

namespace Walk

open Attempt FileAction FileSystem

section

variable {m : Manifest} {ctx : Context} {root source dest out : Path} {p : Pair}
  {names : List Name} {fs fs' : FileSystem} {action : Action}

lemma copyEntry_inside (p : Pair) (e : Entry) (fs : FileSystem) :
    StaysInside (copyEntry p e fs) := by
  cases e with
  | link => exact (copyLink_inside p.source p.dest fs).bind fun _ fs' _ => raises_ok _ fs'
  | file => exact (copyFile_inside p.source p.dest fs).bind fun _ fs' _ => raises_ok _ fs'
  | directory =>
    exact (makeDirectories_inside p.dest fs).bind fun _ _ _ =>
      (ask_inside FileSystem.list p.source _).bind fun _ fs' _ => raises_ok _ fs'
  | pipe => exact raises_error rfl

lemma blameCopy_inside (p : Pair) {e : Failure} (h : e.isOutside = false) :
    (blameCopy p e).isOutside = false := by
  cases e with
  | obstacle o =>
    rw [blameCopy]
    split <;> rfl
  | _ => exact h

lemma blameEntry_inside (p : Pair) {e : Failure} (h : e.isOutside = false) :
    (blameEntry p e).isOutside = false := by
  cases e with
  | obstacle o =>
    cases o with
    | undecodable => rfl
    | _ =>
      rw [blameEntry]
      · split <;> rfl
      · simp
  | _ => exact h

lemma copyVisit_inside (p : Pair) (fs : FileSystem) : StaysInside (copyVisit p fs) := by
  refine Raises.mapFailure ((ask_inside entryAt p.source fs).bind fun e fs' _ => ?_)
    fun _ => blameCopy_inside p
  have hcopy := copyEntry_inside p e fs'
  cases e <;> exact hcopy

lemma copyTree_inside (source dest : Path) (fs : FileSystem) :
    StaysInside (copyTree source dest fs) :=
  run_raises (I := fun _ => True) (fun p fs _ => copyVisit_inside p fs)
    (fun _ _ _ _ _ _ _ _ _ => trivial) _ (fun _ _ => trivial) fs

lemma handle_inside (ctx : Context) (source : Path) (action : Action) (dest : Path) (e : Entry)
    (fs : FileSystem) : StaysInside (handle ctx source action dest e fs) := by
  rcases handle_cases ctx source action dest e with
    hcopy | ⟨rfl, rfl⟩ | ⟨rfl, bytes, mode, rfl⟩
  · rw [hcopy]
    exact copyEntry_inside ⟨source, dest⟩ e fs
  · exact (copyTree_inside source dest fs).bind fun _ fs' _ => raises_ok _ fs'
  · exact (makeRoom_inside dest fs).bind fun _ _ _ =>
      (expandInto_inside source dest ctx _).bind fun _ _ _ =>
      (copyMode_inside source dest _).bind fun _ fs' _ => raises_ok _ fs'

lemma effective_inside {rule : Option FileRule} {e : Failure}
    (h : effective fs ctx rule dest = .error e) : e.isOutside = false := by
  rcases rule with _ | ⟨action, text⟩
  · cases h
  by_cases ha : action = .ignore
  · subst ha
    cases h
  by_cases ht : text = ""
  · subst ht
    cases action <;> cases h
  rw [effective_of_text fs ctx dest ha ht] at h
  cases hx : Expr.expandString fs ctx text with
  | error d =>
    rw [hx] at h
    obtain rfl := Except.error.inj h
    exact expandString_inside hx
  | ok s =>
    rw [hx] at h
    dsimp only at h
    split_ifs at h
    · cases h
      rfl
    · cases hn : Name.ofString? s with
      | some k =>
        rw [hn] at h
        cases h
      | none =>
        rw [hn] at h
        cases h
        rfl

lemma visitEntry_inside (hp : ∃ ns, p.source = sourceAt root ns) :
    StaysInside (visitEntry m ctx root p fs) := by
  obtain ⟨ns, hns⟩ := hp
  refine (ask_inside entryAt p.source fs).bind fun e fs₁ _ => ?_
  rw [hns, pathBelow_sourceAt, settle_ok, bind_apply, pure_apply]
  dsimp only
  split_ifs
  · exact raises_ok _ fs₁
  rw [bind_apply, look]
  cases heff : effective fs₁ ctx (m.lookup (Path.text ⟨.relative, ns⟩)) p.dest with
  | error d => exact raises_error (effective_inside heff)
  | ok chosen =>
    rcases chosen with _ | ⟨action, q⟩
    · exact raises_ok _ fs₁
    · exact handle_inside ctx _ action q e fs₁

lemma visitRoot_inside (p : Pair) (fs : FileSystem) : StaysInside (visitRoot p fs) := by
  refine (ask_inside isDirectory p.source fs).bind fun b fs₁ _ => ?_
  cases b with
  | false => exact raises_error rfl
  | true => exact copyEntry_inside p .directory fs₁

lemma materializeVisit_inside (hp : ∃ ns, p.source = sourceAt root ns) :
    StaysInside (materializeVisit m ctx root p fs) := by
  refine Raises.mapFailure (E := fun e => e.isOutside = false) ?_ fun _ => blameEntry_inside p
  by_cases hroot : p.source = root
  · rw [if_pos hroot]
    exact visitRoot_inside p fs
  · rw [if_neg hroot]
    exact visitEntry_inside hp

lemma materialize_inside (m : Manifest) (ctx : Context) (root dest : Path) (fs : FileSystem) :
    StaysInside (materialize m ctx root dest fs) := by
  refine run_raises (I := fun p => ∃ ns, p.source = sourceAt root ns)
    (fun p fs => materializeVisit_inside) (fun p fs out names fs' hp _ n _ => ?_) _
    (fun p hp => ?_) fs
  · obtain ⟨ns, hns⟩ := hp
    exact ⟨n :: ns, by rw [Pair.child, hns, child_sourceAt]⟩
  · obtain rfl := List.mem_singleton.mp hp
    exact ⟨[], rfl⟩

end

end Walk

end Scaffold
