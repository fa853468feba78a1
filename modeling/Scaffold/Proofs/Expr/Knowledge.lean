import Scaffold.Proofs.Bindings
import Scaffold.Proofs.Expr.Expansion

namespace Scaffold

structure Context.Agrees (ctx ctx' : Context) : Prop where
  root : ctx'.root = ctx.root
  get? : ∀ n, ctx'.vars.get? n = ctx.vars.get? n

structure Context.AgreesOn (read : String → Prop) (ctx ctx' : Context) : Prop where
  root : ctx'.root = ctx.root
  get? : ∀ n, read n → ctx'.vars.get? n = ctx.vars.get? n

namespace Expr

mutual

def vars : Expr → List String
  | .absent | .lit _ => []
  | .var name => [name]
  | .seq a b | .equals a b | .orElse a b => a.vars ++ b.vars
  | .cond test success failure => test.vars ++ success.vars ++ failure.vars
  | .call _ file define _ => file.vars ++ definesVars define

def definesVars : Defines → List String
  | .nil => []
  | .cons _ value rest => value.vars ++ definesVars rest

end

namespace Rendering

variable {α β : Type}

lemma bind_congr {r : Rendering α} {f g : α → Rendering β}
    (h : ∀ a, r.result = .ok a → f a = g a) : r >>= f = r >>= g := by
  rw [bind_eq, bind_eq]
  cases hr : r.result with
  | error e => rfl
  | ok a => simp only [h a hr]

end Rendering

section

variable {fs : FileSystem} {expand : Expander} {ctx ctx' : Context} {read : String → Prop}

lemma get?_rebind (ctx : Context) (define : Bindings String) (undefine : List String) (n : String) :
    (ctx.rebind define undefine).vars.get? n =
      (define.get? n).or (if n ∈ undefine then none else ctx.vars.get? n) := by
  rw [Context.rebind, Bindings.get?_merge, Bindings.get?_eraseAll]

lemma agrees_iff : ctx.Agrees ctx' ↔ ctx.AgreesOn (fun _ => True) ctx' :=
  ⟨fun h => ⟨h.root, fun n _ => h.get? n⟩, fun h => ⟨h.root, fun n => h.get? n trivial⟩⟩

lemma rebind_agreesOn (h : ctx.AgreesOn read ctx') (define : Bindings String)
    (undefine : List String) :
    (ctx.rebind define undefine).AgreesOn read (ctx'.rebind define undefine) :=
  ⟨h.root, fun n hn => by rw [get?_rebind, get?_rebind, h.get? n hn]⟩

def Expander.Respects (expand : Expander) : Prop :=
  ∀ ctx ctx' cs, ctx.Agrees ctx' → expand ctx' cs = expand ctx cs

def Expander.RespectsOn (fs : FileSystem) (read : String → Prop) (expand : Expander) : Prop :=
  ∀ ctx ctx' path cs, readText fs path = .ok cs → ctx.AgreesOn read ctx' →
    expand ctx' cs = expand ctx cs

lemma Expander.Respects.on (h : expand.Respects) : expand.RespectsOn fs fun _ => True :=
  fun ctx ctx' _ cs _ hagrees => h ctx ctx' cs (agrees_iff.mpr hagrees)

lemma makeFile_agreesOn (hexp : expand.RespectsOn fs read) (h : ctx.AgreesOn read ctx')
    (path : Path) : makeFile fs expand ctx' path = makeFile fs expand ctx path := by
  rw [makeFile, makeFile]
  cases hr : readText fs path with
  | error o => rfl
  | ok cs => simp only [hexp ctx ctx' path cs hr h]

lemma makeFile_agrees (hexp : expand.Respects) (h : ctx.Agrees ctx') (path : Path) :
    makeFile fs expand ctx' path = makeFile fs expand ctx path :=
  makeFile_agreesOn hexp.on (agrees_iff.mp h) path

mutual

lemma evaluate_agreesOn (hexp : expand.RespectsOn fs read) (h : ctx.AgreesOn read ctx') :
    (e : Expr) → (∀ n ∈ e.vars, read n) → evaluate fs expand ctx' e = evaluate fs expand ctx e
  | .absent, _ => rfl
  | .var name, hread => by
    rw [evaluate, evaluate, h.get? name (hread name List.mem_cons_self)]
  | .lit text, _ => rfl
  | .seq first second, hread => by
    obtain ⟨hfirst, hsecond⟩ := List.forall_mem_append.mp hread
    rw [evaluate, evaluate, evaluate_agreesOn hexp h first hfirst,
      evaluate_agreesOn hexp h second hsecond]
  | .equals left right, hread => by
    obtain ⟨hleft, hright⟩ := List.forall_mem_append.mp hread
    rw [evaluate, evaluate, evaluate_agreesOn hexp h left hleft,
      evaluate_agreesOn hexp h right hright]
  | .cond test success failure, hread => by
    obtain ⟨hhead, hfailure⟩ := List.forall_mem_append.mp hread
    obtain ⟨htest, hsuccess⟩ := List.forall_mem_append.mp hhead
    rw [evaluate, evaluate, evaluate_agreesOn hexp h test htest,
      evaluate_agreesOn hexp h success hsuccess, evaluate_agreesOn hexp h failure hfailure]
  | .orElse first fallback, hread => by
    obtain ⟨hfirst, hfallback⟩ := List.forall_mem_append.mp hread
    rw [evaluate, evaluate, evaluate_agreesOn hexp h first hfirst,
      evaluate_agreesOn hexp h fallback hfallback]
  | .call function file define undefine, hread => by
    obtain ⟨hfile, hdefine⟩ := List.forall_mem_append.mp hread
    have hlocate (name : List Char) : locate ctx' name = locate ctx name := by
      rw [locate, locate, h.root]
    rw [evaluate, evaluate, evaluate_agreesOn hexp h file hfile,
      evaluateDefines_agreesOn hexp h define hdefine]
    simp only [hlocate, makeFile_agreesOn hexp (rebind_agreesOn h _ _)]

lemma evaluateDefines_agreesOn (hexp : expand.RespectsOn fs read) (h : ctx.AgreesOn read ctx') :
    (ds : Defines) → (∀ n ∈ definesVars ds, read n) →
      evaluateDefines fs expand ctx' ds = evaluateDefines fs expand ctx ds
  | .nil, _ => rfl
  | .cons name value rest, hread => by
    obtain ⟨hvalue, hrest⟩ := List.forall_mem_append.mp hread
    rw [evaluateDefines, evaluateDefines, evaluate_agreesOn hexp h value hvalue,
      evaluateDefines_agreesOn hexp h rest hrest]

end

lemma evaluate_agrees (hexp : expand.Respects) (h : ctx.Agrees ctx') (e : Expr) :
    evaluate fs expand ctx' e = evaluate fs expand ctx e :=
  evaluate_agreesOn hexp.on (agrees_iff.mp h) e fun _ _ => trivial

lemma expandSegments_congr {eval eval' : Expr → Rendering Bool} {ss : List Segment}
    (h : ∀ e, .expr e ∈ ss → eval' e = eval e) :
    expandSegments eval' ss = expandSegments eval ss := by
  induction ss with
  | nil => rfl
  | cons s ss ih =>
    have hss := ih fun e he => h e (List.mem_cons_of_mem s he)
    cases s with
    | char c => rw [expandSegments, expandSegments, hss]
    | expr e => rw [expandSegments, expandSegments, h e List.mem_cons_self, hss]
    | fault f => rfl

lemma expandAt_respects (fs : FileSystem) (depth : Nat) : (expandAt fs depth).Respects := by
  induction depth with
  | zero => exact fun _ _ _ _ => rfl
  | succ depth ih =>
    intro ctx ctx' cs h
    exact expandSegments_congr fun e _ => evaluate_agrees ih h e

end

lemma expand_respects (fs : FileSystem) : (expand fs).Respects :=
  expandAt_respects fs (depthLimit fs)

end Expr

end Scaffold
