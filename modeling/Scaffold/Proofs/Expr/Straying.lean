import Scaffold.Proofs.Expr.Expansion
import Scaffold.Proofs.FileSystem.Refusals

/-! The failures of an expansion that no rule foresees: a file that makes itself, and a path that is
too long to be asked for. -/

namespace Scaffold

namespace Failure

def isOfExpression : Failure → Bool
  | .malformed _ | .unknownFunction _ | .surplusArguments _ | .unreadable .. => true
  | _ => false

lemma isForeseen_of_isOfExpression {e : Failure} (h : e.isOfExpression = true) :
    e.isForeseen = true := by
  cases e with
  | tooDeep | obstacle => cases h
  | _ => rfl

end Failure

namespace Expr

/-- A failure that leaves an expansion as it comes. Inside of a file that is made, a path that is
too long counts as a failure to read that file. -/
def Strays (fs : FileSystem) (e : Failure) : Prop :=
  e = .tooDeep ∨
    ∃ p : Path, fs.exists? p = .error .nameTooLong ∧ e = .obstacle (.refused .nameTooLong p.text)

def Tame {α : Type} (fs : FileSystem) (r : Rendering α) : Prop :=
  ∀ e, r.result = .error e → e.isOfExpression = true ∨ Strays fs e

section

variable {α β : Type} {fs : FileSystem} {r : Rendering α} {f : α → Rendering β} {e : Failure}
  {expand : Expander} {ctx : Context} {path : Path} {cs : List Char}

lemma Strays.isForeseen (h : Strays fs e) : e.isForeseen = false := by
  rcases h with rfl | ⟨p, -, rfl⟩ <;> rfl

lemma tame_of_ok {a : α} (h : r.result = .ok a) : Tame fs r := fun e he => by
  cases h.symm.trans he

lemma tame_fail (h : e.isOfExpression = true) : Tame fs (.fail e : Rendering α) := fun d hd => by
  cases hd
  exact .inl h

lemma Tame.bind (h : Tame fs r) (hf : ∀ a, r.result = .ok a → Tame fs (f a)) :
    Tame fs (r >>= f) := by
  intro e he
  rw [Rendering.bind_eq] at he
  cases hr : r.result with
  | error d =>
    rw [hr] at he
    obtain rfl := Except.error.inj he
    exact h d hr
  | ok a =>
    rw [hr] at he
    exact hf a hr e he

lemma Tame.capture (h : Tame fs r) : Tame fs r.capture := by
  intro e he
  rw [Rendering.capture] at he
  cases hr : r.result with
  | error d =>
    rw [hr] at he
    obtain rfl := Except.error.inj he
    exact h d hr
  | ok a =>
    rw [hr] at he
    cases he

lemma present_tame (fs : FileSystem) (path : Path) : Tame fs (present fs path) := by
  rw [present]
  cases hp : fs.exists? path with
  | ok b => exact tame_of_ok rfl
  | error r =>
    obtain rfl := FileSystem.ask_refusal hp
    intro e he
    cases he
    exact .inr (.inr ⟨path, hp, rfl⟩)

lemma exists?_of_present {b : Bool} (h : (present fs path).result = .ok b) :
    fs.exists? path = .ok b := by
  rw [present] at h
  cases hp : fs.exists? path with
  | ok c =>
    rw [hp] at h
    exact congrArg Except.ok (Except.ok.inj h)
  | error r =>
    rw [hp] at h
    cases h

lemma includeFile_tame (fs : FileSystem) (path : Path) : Tame fs (includeFile fs path) := by
  refine (present_tame fs path).bind fun b _ => ?_
  cases b with
  | false => exact tame_of_ok rfl
  | true =>
    rw [if_pos rfl]
    cases readText fs path with
    | error o => exact tame_fail rfl
    | ok cs => exact tame_of_ok rfl

lemma readFile_refusal {d : Refusal} (hp : fs.exists? path = .ok true)
    (h : fs.readFile path = .error d) : d = .isDirectory := by
  rw [FileSystem.readFile] at h
  rw [FileSystem.exists?] at hp
  cases ht : fs.targetAt path with
  | error d' =>
    rw [ht, FileSystem.ask] at hp
    split_ifs at hp
    cases hp
  | ok c =>
    rw [ht] at h
    cases c with
    | directory => exact (Except.error.inj h).symm
    | file | link | pipe => cases h

lemma exists?_of_readText (h : readText fs path = .ok cs) : fs.exists? path = .ok true := by
  rw [readText, FileSystem.readFile] at h
  rw [FileSystem.exists?]
  cases ht : fs.targetAt path with
  | error r =>
    rw [ht] at h
    cases h
  | ok e => rfl

lemma stopsReading_of_exists {o : Obstacle} (hp : fs.exists? path = .ok true)
    (h : readText fs path = .error o) : Obstacle.stopsReading o = true := by
  rw [readText] at h
  cases hf : fs.readFile path with
  | error d =>
    rw [hf] at h
    obtain rfl := Except.error.inj h
    rw [readFile_refusal hp hf]
    rfl
  | ok bytes =>
    rw [hf] at h
    dsimp only at h
    cases hd : Text.Utf8.decode bytes with
    | error f =>
      rw [hd] at h
      obtain rfl := Except.error.inj h
      rfl
    | ok s =>
      rw [hd] at h
      cases h

lemma makeFile_tame (hexp : ∀ ctx cs, Tame fs (expand ctx cs)) (hp : fs.exists? path = .ok true) :
    Tame fs (makeFile fs expand ctx path) := by
  intro e he
  rw [makeFile, Rendering.mapFailure] at he
  cases hr : readText fs path with
  | error o =>
    rw [hr] at he
    obtain rfl := Except.error.inj he
    rw [blame, if_pos (stopsReading_of_exists hp hr)]
    exact .inl rfl
  | ok cs =>
    rw [hr] at he
    have hbody : Tame fs (expand ctx cs >>= fun _ => (pure true : Rendering Bool)) :=
      (hexp ctx cs).bind fun _ _ => tame_of_ok rfl
    cases hb : (expand ctx cs >>= fun _ => (pure true : Rendering Bool)).result with
    | ok b =>
      rw [hb] at he
      cases he
    | error d =>
      rw [hb] at he
      obtain rfl := Except.error.inj he
      rcases hbody d hb with hd | rfl | ⟨p, -, rfl⟩
      · cases d with
        | malformed | unknownFunction | surplusArguments | unreadable => exact .inl rfl
        | _ => cases hd
      · exact .inr (.inl rfl)
      · exact .inl rfl

mutual

lemma evaluate_tame (hexp : ∀ ctx cs, Tame fs (expand ctx cs)) (ctx : Context) :
    (e : Expr) → Tame fs (evaluate fs expand ctx e)
  | .absent => tame_of_ok rfl
  | .var name => by
    rw [evaluate]
    cases ctx.vars.get? name with
    | none => exact tame_of_ok rfl
    | some value => exact tame_of_ok rfl
  | .lit text => tame_of_ok rfl
  | .seq first second => by
    rw [evaluate]
    exact (evaluate_tame hexp ctx first).bind fun p _ =>
      (evaluate_tame hexp ctx second).bind fun q _ => tame_of_ok rfl
  | .equals left right => by
    rw [evaluate]
    refine (evaluate_tame hexp ctx left).capture.bind fun l _ =>
      (evaluate_tame hexp ctx right).capture.bind fun r _ => ?_
    by_cases h : l = r
    · rw [if_pos h]
      exact tame_of_ok rfl
    · rw [if_neg h]
      exact tame_of_ok rfl
  | .cond test success failure => by
    rw [evaluate]
    refine (evaluate_tame hexp ctx test).capture.bind fun t _ => ?_
    by_cases h : t.2 = true
    · rw [if_pos h]
      exact evaluate_tame hexp ctx success
    · rw [if_neg h]
      exact evaluate_tame hexp ctx failure
  | .orElse first fallback => by
    rw [evaluate]
    refine (evaluate_tame hexp ctx first).capture.bind fun t _ => ?_
    by_cases h : t.2 = true
    · rw [if_pos h]
      exact tame_of_ok rfl
    · rw [if_neg h]
      exact evaluate_tame hexp ctx fallback
  | .call function file define undefine => by
    have hname := (evaluate_tame hexp ctx file).capture
    rw [evaluate]
    cases hf : Function.ofName? function with
    | none => exact tame_fail rfl
    | some f =>
      have hplain (look : Path → Rendering Bool) (hlook : ∀ path, Tame fs (look path)) :
          Tame fs (if define.isEmpty ∧ undefine.isEmpty then do
              let name ← (evaluate fs expand ctx file).capture
              look (locate ctx name.1)
            else .fail (.surplusArguments function)) := by
        by_cases h : define.isEmpty ∧ undefine.isEmpty
        · rw [if_pos h]
          exact hname.bind fun name _ => hlook _
        · rw [if_neg h]
          exact tame_fail rfl
      cases f with
      | «exists» => exact hplain (present fs) (present_tame fs)
      | «include» => exact hplain (includeFile fs) (includeFile_tame fs)
      | make =>
        refine hname.bind fun name _ => (present_tame fs _).bind fun b hb => ?_
        cases b with
        | false => exact tame_of_ok rfl
        | true =>
          exact (evaluateDefines_tame hexp ctx define).bind fun values _ =>
            makeFile_tame hexp (exists?_of_present hb)

lemma evaluateDefines_tame (hexp : ∀ ctx cs, Tame fs (expand ctx cs)) (ctx : Context) :
    (ds : Defines) → Tame fs (evaluateDefines fs expand ctx ds)
  | .nil => tame_of_ok rfl
  | .cons name value rest => by
    rw [evaluateDefines]
    exact (evaluate_tame hexp ctx value).capture.bind fun v _ =>
      (evaluateDefines_tame hexp ctx rest).bind fun vs _ => tame_of_ok rfl

end

lemma expandSegments_tame {eval : Expr → Rendering Bool} (h : ∀ e, Tame fs (eval e))
    (ss : List Segment) : Tame fs (expandSegments eval ss) := by
  induction ss with
  | nil => exact tame_of_ok rfl
  | cons s ss ih =>
    cases s with
    | char c => exact (tame_of_ok rfl).bind fun _ _ => ih
    | expr e => exact (h e).bind fun _ _ => ih
    | fault f => exact tame_fail rfl

lemma expandAt_tame (fs : FileSystem) (depth : Nat) (ctx : Context) (cs : List Char) :
    Tame fs (expandAt fs depth ctx cs) := by
  induction depth generalizing ctx cs with
  | zero =>
    intro e he
    cases he
    exact .inr (.inl rfl)
  | succ depth ih => exact expandSegments_tame (evaluate_tame ih ctx) (segments cs)

lemma isOfExpression_or_strays {text : String} (h : expandString fs ctx text = .error e) :
    e.isOfExpression = true ∨ Strays fs e := by
  apply expandAt_tame fs (depthLimit fs) ctx text.toList
  rw [expandString] at h
  cases hr : (expand fs ctx text.toList).result with
  | ok u =>
    rw [hr] at h
    cases h
  | error d =>
    rw [hr] at h
    obtain rfl := Except.error.inj h
    exact hr

lemma expandString_failure {text : String} (h : expandString fs ctx text = .error e) :
    e.isForeseen = true ∨ Strays fs e :=
  (isOfExpression_or_strays h).imp Failure.isForeseen_of_isOfExpression id

end

end Expr

end Scaffold
