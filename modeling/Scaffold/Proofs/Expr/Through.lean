import Mathlib.Tactic.Common
import Scaffold.Expr.Evaluate

/-! Expansion while files change. Each question is asked at a point of its own, and there the file
system may be any. -/

namespace Scaffold.Expr

abbrev Moments := List Nat → FileSystem

def Moments.part (see : Moments) (i : Nat) : Moments :=
  fun point => see (i :: point)

mutual

def evaluateThrough (expand : Moments → Expander) (ctx : Context) :
    Moments → Expr → Rendering Bool
  | _, .absent => pure false
  | _, .var name =>
    match ctx.vars.get? name with
    | none => pure false
    | some value => do
      Rendering.write value.toList
      pure true
  | _, .lit text => do
    Rendering.write text.toList
    pure true
  | see, .seq first second => do
    let p ← evaluateThrough expand ctx (see.part 0) first
    let q ← evaluateThrough expand ctx (see.part 1) second
    pure (p || q)
  | see, .equals left right => do
    let l ← (evaluateThrough expand ctx (see.part 0) left).capture
    let r ← (evaluateThrough expand ctx (see.part 1) right).capture
    if l = r then
      Rendering.write l.1
      pure true
    else pure false
  | see, .cond test success failure => do
    let t ← (evaluateThrough expand ctx (see.part 0) test).capture
    if t.2 then evaluateThrough expand ctx (see.part 1) success
    else evaluateThrough expand ctx (see.part 1) failure
  | see, .orElse first fallback => do
    let f ← (evaluateThrough expand ctx (see.part 0) first).capture
    if f.2 then
      Rendering.write f.1
      pure true
    else evaluateThrough expand ctx (see.part 1) fallback
  | see, .call function file define undefine =>
    match Function.ofName? function with
    | none => .fail (.unknownFunction function)
    | some .make => do
      let name ← (evaluateThrough expand ctx (see.part 0) file).capture
      let path := locate ctx name.1
      if ← present (see [1]) path then
        let values ← evaluateDefinesThrough expand ctx (see.part 2) define
        makeFile (see [3]) (expand (see.part 4)) (ctx.rebind (.ofList values) undefine) path
      else pure false
    | some f =>
      if define.isEmpty ∧ undefine.isEmpty then do
        let name ← (evaluateThrough expand ctx (see.part 0) file).capture
        let path := locate ctx name.1
        match f with
        | .include => includeFile (see [1]) path
        | _ => present (see [1]) path
      else .fail (.surplusArguments function)

def evaluateDefinesThrough (expand : Moments → Expander) (ctx : Context) :
    Moments → Defines → Rendering (List (String × String))
  | _, .nil => pure []
  | see, .cons name value rest => do
    let v ← (evaluateThrough expand ctx (see.part 0) value).capture
    let vs ← evaluateDefinesThrough expand ctx (see.part 1) rest
    pure ((name, String.ofList v.1) :: vs)

end

def expandSegmentsThrough (eval : Moments → Expr → Rendering Bool) :
    Moments → List Segment → Rendering Unit
  | _, [] => pure ()
  | see, .char c :: ss => do
    Rendering.write [c]
    expandSegmentsThrough eval see ss
  | see, .expr e :: ss => do
    let _ ← eval (see.part 0) e
    expandSegmentsThrough eval (see.part 1) ss
  | _, .fault f :: _ => .fail (.malformed f)

def expandThrough : Nat → Moments → Expander
  | 0 => fun _ _ _ => .fail .tooDeep
  | depth + 1 => fun see ctx cs =>
    expandSegmentsThrough (evaluateThrough (expandThrough depth) ctx) see (segments cs)

section

variable {fs : FileSystem} {expand : Expander} {expand' : Moments → Expander} {ctx : Context}

lemma Moments.part_const (fs : FileSystem) (i : Nat) :
    Moments.part (fun _ => fs) i = fun _ => fs := rfl

mutual

lemma evaluateThrough_const (h : expand' (fun _ => fs) = expand) : (e : Expr) →
    evaluateThrough expand' ctx (fun _ => fs) e = evaluate fs expand ctx e
  | .absent | .lit _ => by rw [evaluateThrough, evaluate]
  | .var name => by
    cases hv : ctx.vars.get? name <;> simp only [evaluateThrough, evaluate, hv]
  | .seq first second | .equals first second => by
    simp only [evaluateThrough, evaluate, Moments.part_const, evaluateThrough_const h first,
      evaluateThrough_const h second]
  | .cond test success failure => by
    simp only [evaluateThrough, evaluate, Moments.part_const, evaluateThrough_const h test,
      evaluateThrough_const h success, evaluateThrough_const h failure]
  | .orElse first fallback => by
    simp only [evaluateThrough, evaluate, Moments.part_const, evaluateThrough_const h first,
      evaluateThrough_const h fallback]
  | .call function file define undefine => by
    rw [evaluateThrough, evaluate, ← evaluateThrough_const h file,
      ← evaluateDefinesThrough_const h define, ← h]
    rfl

lemma evaluateDefinesThrough_const (h : expand' (fun _ => fs) = expand) : (ds : Defines) →
    evaluateDefinesThrough expand' ctx (fun _ => fs) ds = evaluateDefines fs expand ctx ds
  | .nil => by rw [evaluateDefinesThrough, evaluateDefines]
  | .cons name value rest => by
    simp only [evaluateDefinesThrough, evaluateDefines, Moments.part_const,
      evaluateThrough_const h value, evaluateDefinesThrough_const h rest]

end

lemma expandSegmentsThrough_const {eval : Expr → Rendering Bool}
    {eval' : Moments → Expr → Rendering Bool} (h : ∀ e, eval' (fun _ => fs) e = eval e)
    (ss : List Segment) :
    expandSegmentsThrough eval' (fun _ => fs) ss = expandSegments eval ss := by
  induction ss with
  | nil => rfl
  | cons s ss ih =>
    cases s with
    | char c => exact congrArg (Rendering.write [c] >>= fun _ => ·) ih
    | expr e =>
      rw [expandSegments, ← ih, ← h]
      rfl
    | fault f => rfl

lemma expandThrough_const (fs : FileSystem) (depth : Nat) :
    expandThrough depth (fun _ => fs) = expandAt fs depth := by
  induction depth with
  | zero => rfl
  | succ depth ih =>
    funext ctx cs
    exact expandSegmentsThrough_const (evaluateThrough_const ih) (segments cs)

end

end Scaffold.Expr
