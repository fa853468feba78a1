import Scaffold.Proofs.Expr.Expansion

namespace Scaffold.Expr

namespace Rendering

variable {α β : Type} {r : Rendering α} {f : α → Rendering β}

lemma text_capture (r : Rendering α) : r.capture.text = [] := by
  rw [capture]
  cases r.result <;> rfl

lemma capture_of_ok {t : List Char} {a : α} (h : r = ⟨t, .ok a⟩) :
    r.capture = pure (t, a) := by
  rw [h]
  rfl

lemma text_bind (hr : r.text = []) (hf : ∀ a, (f a).text = []) : (r >>= f).text = [] := by
  rw [bind_eq]
  cases r.result with
  | error e => exact hr
  | ok a => exact List.append_eq_nil_iff.mpr ⟨hr, hf a⟩

lemma ok_of_mapFailure {g : Failure → Failure} {a : α} (h : (r.mapFailure g).result = .ok a) :
    r.result = .ok a := by
  rw [mapFailure] at h
  cases hr : r.result with
  | error e =>
    rw [hr] at h
    cases h
  | ok b =>
    rw [hr] at h
    exact h

def SilentIfAbsent (r : Rendering Bool) : Prop :=
  r.result = .ok false → r.text = []

lemma SilentIfAbsent.of_ne {r : Rendering Bool} (h : r.result ≠ .ok false) : r.SilentIfAbsent :=
  fun hr => absurd hr h

lemma SilentIfAbsent.bind {f : α → Rendering Bool} (hr : r.text = [])
    (hf : ∀ a, (f a).SilentIfAbsent) : (r >>= f).SilentIfAbsent := by
  intro h
  obtain ⟨a, ha, hfa⟩ := result_bind_eq_ok h
  rw [bind_of_ok ha, hr, hf a hfa]
  rfl

end Rendering

section

open Rendering

variable {fs : FileSystem} {expand : Expander} {ctx : Context} {l r e : Expr} {lt rt : List Char}
  {lp rp : Bool}

lemma text_present (fs : FileSystem) (path : Path) : (present fs path).text = [] := by
  rw [present]
  cases fs.exists? path <;> rfl

lemma includeFile_silent (fs : FileSystem) (path : Path) :
    (includeFile fs path).SilentIfAbsent := by
  refine .bind (text_present fs path) fun b => ?_
  cases b with
  | false => exact fun _ => rfl
  | true =>
    rw [if_pos rfl]
    cases readText fs path with
    | error o => exact .of_ne nofun
    | ok cs => exact .of_ne nofun

lemma makeFile_silent (fs : FileSystem) (expand : Expander) (ctx : Context) (path : Path) :
    (makeFile fs expand ctx path).SilentIfAbsent := by
  refine .of_ne fun h => ?_
  have hmade := ok_of_mapFailure h
  cases hr : readText fs path with
  | error o =>
    rw [hr] at hmade
    cases hmade
  | ok cs =>
    rw [hr] at hmade
    obtain ⟨_, _, hpure⟩ := result_bind_eq_ok hmade
    cases hpure

lemma text_evaluateDefines (ds : Defines) : (evaluateDefines fs expand ctx ds).text = [] := by
  cases ds with
  | nil => rfl
  | cons name value rest =>
    rw [evaluateDefines]
    exact text_bind (text_capture _) fun _ => text_bind (text_evaluateDefines rest) fun _ => rfl

lemma evaluate_silent : (e : Expr) → (evaluate fs expand ctx e).SilentIfAbsent
  | .absent => fun _ => rfl
  | .var name => by
    rw [evaluate]
    cases ctx.vars.get? name with
    | none => exact fun _ => rfl
    | some value => exact .of_ne nofun
  | .lit text => .of_ne nofun
  | .seq first second => by
    intro h
    rw [evaluate] at h ⊢
    obtain ⟨p, hp, hq⟩ := result_bind_eq_ok h
    obtain ⟨q, hq, hpure⟩ := result_bind_eq_ok hq
    obtain ⟨rfl, rfl⟩ := Bool.or_eq_false_iff.mp (Except.ok.inj hpure)
    rw [bind_of_ok hp, bind_of_ok hq, evaluate_silent first hp, evaluate_silent second hq]
    rfl
  | .equals left right => by
    rw [evaluate]
    refine .bind (text_capture _) fun l => .bind (text_capture _) fun r => ?_
    by_cases h : l = r
    · rw [if_pos h]
      exact .of_ne nofun
    · rw [if_neg h]
      exact fun _ => rfl
  | .cond test success failure => by
    rw [evaluate]
    refine .bind (text_capture _) fun t => ?_
    by_cases h : t.2 = true
    · rw [if_pos h]
      exact evaluate_silent success
    · rw [if_neg h]
      exact evaluate_silent failure
  | .orElse first fallback => by
    rw [evaluate]
    refine .bind (text_capture _) fun t => ?_
    by_cases h : t.2 = true
    · rw [if_pos h]
      exact .of_ne nofun
    · rw [if_neg h]
      exact evaluate_silent fallback
  | .call function file define undefine => by
    rw [evaluate]
    cases Function.ofName? function with
    | none => exact .of_ne nofun
    | some f =>
      cases f with
      | make =>
        refine .bind (text_capture _) fun name => .bind (text_present fs _) fun b => ?_
        cases b with
        | false => exact fun _ => rfl
        | true =>
          exact .bind (text_evaluateDefines define) fun _ => makeFile_silent fs expand _ _
      | «exists» =>
        by_cases h : define.isEmpty ∧ undefine.isEmpty
        · simp only [if_pos h]
          exact .bind (text_capture _) fun name _ => text_present fs _
        · simp only [if_neg h]
          exact .of_ne nofun
      | «include» =>
        by_cases h : define.isEmpty ∧ undefine.isEmpty
        · simp only [if_pos h]
          exact .bind (text_capture _) fun name => includeFile_silent fs _
        · simp only [if_neg h]
          exact .of_ne nofun

lemma write_then_present (cs : List Char) :
    (write cs >>= fun _ => (pure true : Rendering Bool)) = ⟨cs, .ok true⟩ := by
  rw [bind_of_ok rfl]
  exact congrArg (Rendering.mk · (.ok true)) (List.append_nil cs)

lemma evaluate_equals (hl : evaluate fs expand ctx l = ⟨lt, .ok lp⟩)
    (hr : evaluate fs expand ctx r = ⟨rt, .ok rp⟩) :
    evaluate fs expand ctx (.equals l r) =
      if (lt, lp) = (rt, rp) then ⟨lt, .ok true⟩ else ⟨[], .ok false⟩ := by
  rw [evaluate, capture_of_ok hl, pure_then, capture_of_ok hr, pure_then, write_then_present]
  rfl

lemma text_of_absent {t : List Char} (h : evaluate fs expand ctx e = ⟨t, .ok false⟩) : t = [] := by
  have hs : (evaluate fs expand ctx e).SilentIfAbsent := evaluate_silent e
  rw [h] at hs
  exact hs rfl

lemma equal_sides_iff (hl : evaluate fs expand ctx l = ⟨lt, .ok lp⟩)
    (hr : evaluate fs expand ctx r = ⟨rt, .ok rp⟩) :
    (lt, lp) = (rt, rp) ↔ lp = false ∧ rp = false ∨ lp = true ∧ rp = true ∧ lt = rt := by
  rw [Prod.mk.injEq]
  constructor
  · rintro ⟨rfl, rfl⟩
    cases lp with
    | false => exact .inl ⟨rfl, rfl⟩
    | true => exact .inr ⟨rfl, rfl, rfl⟩
  · rintro (⟨rfl, rfl⟩ | ⟨rfl, rfl, rfl⟩)
    · rw [text_of_absent hl, text_of_absent hr]
      exact ⟨rfl, rfl⟩
    · exact ⟨rfl, rfl⟩

end

theorem render_absent_and_equals (fs : FileSystem) (ctx : Context) :
    (∀ e, (render fs ctx e).result = .ok false → (render fs ctx e).text = []) ∧
    (∀ l r lt rt lp rp, render fs ctx l = ⟨lt, .ok lp⟩ → render fs ctx r = ⟨rt, .ok rp⟩ →
      render fs ctx (.equals l r) =
        (if lp = false ∧ rp = false ∨ lp = true ∧ rp = true ∧ lt = rt then ⟨lt, .ok true⟩
          else ⟨[], .ok false⟩) ∧
      render fs ctx (.equals r l) = render fs ctx (.equals l r)) ∧
    ∀ e t p, render fs ctx e = ⟨t, .ok p⟩ → render fs ctx (.equals e e) = ⟨t, .ok true⟩ := by
  refine ⟨fun e => evaluate_silent e, fun l r lt rt lp rp hl hr => ⟨?_, ?_⟩, fun e t p he => ?_⟩
  · rw [render, evaluate_equals hl hr]
    exact if_congr (equal_sides_iff hl hr) rfl rfl
  · rw [render, render, evaluate_equals hr hl, evaluate_equals hl hr]
    by_cases h : (lt, lp) = (rt, rp)
    · obtain ⟨rfl, rfl⟩ := Prod.mk.inj h
      rfl
    · rw [if_neg h, if_neg (Ne.symm h)]
  · rw [render, evaluate_equals he he, if_pos rfl]

end Scaffold.Expr
