import Scaffold.Proofs.Expr.Canonical
import Scaffold.Proofs.Expr.Knowledge

/-! What a context knows of one name can be written into the expression instead: its text in place
of the variable, or nothing. A file that is made sees the name through the arguments of the call. -/

namespace Scaffold

structure Context.Knows (ctx : Context) (x : String) (value : Option String) (ctx' : Context) :
    Prop where
  root : ctx'.root = ctx.root
  get? : ∀ n, ctx'.vars.get? n = if n = x then value else ctx.vars.get? n

namespace Expr

def passOn (x : String) : Option String → Defines → List String → Defines × List String
  | some text, define, undefine =>
    if x ∈ define.names ∨ x ∈ undefine then (define, undefine)
    else (define.set x (.lit text), undefine)
  | none, define, undefine =>
    if x ∈ define.names then (define, undefine) else (define, undefine ++ [x])

mutual

/-- The expression for a context in which `x` has the value, or is not defined. -/
def assuming (x : String) (value : Option String) : Expr → Expr
  | .absent => .absent
  | .var name => if name = x then value.elim .absent .lit else .var name
  | .lit text => .lit text
  | .seq first second => .seq (first.assuming x value) (second.assuming x value)
  | .equals left right => .equals (left.assuming x value) (right.assuming x value)
  | .cond test success failure =>
    .cond (test.assuming x value) (success.assuming x value) (failure.assuming x value)
  | .orElse first fallback => .orElse (first.assuming x value) (fallback.assuming x value)
  | .call function file define undefine =>
    let define := definesAssuming x value define
    let arguments :=
      if Function.ofName? function = some .make then passOn x value define undefine
      else (define, undefine)
    .call function (file.assuming x value) arguments.1 arguments.2

def definesAssuming (x : String) (value : Option String) : Defines → Defines
  | .nil => .nil
  | .cons name e rest => .cons name (e.assuming x value) (definesAssuming x value rest)

end

section

variable {fs : FileSystem} {expand : Expander} {ctx ctx' : Context} {x : String}
  {value : Option String}

lemma isEmpty_definesAssuming (ds : Defines) :
    (definesAssuming x value ds).isEmpty = ds.isEmpty := by
  cases ds <;> rfl

lemma names_of_evaluateDefines {ds : Defines} {values : List (String × String)}
    (h : (evaluateDefines fs expand ctx ds).result = .ok values) :
    values.map Prod.fst = ds.names := by
  cases ds with
  | nil => cases h; rfl
  | cons name e rest =>
    rw [evaluateDefines] at h
    obtain ⟨v, -, h⟩ := Rendering.result_bind_eq_ok h
    obtain ⟨vs, hvs, h⟩ := Rendering.result_bind_eq_ok h
    cases h
    rw [List.map_cons, names_of_evaluateDefines hvs, Defines.names]

lemma evaluateDefines_set {ds : Defines} (hx : x ∉ ds.names) (text : String) :
    evaluateDefines fs expand ctx (ds.set x (.lit text)) =
      evaluateDefines fs expand ctx ds >>= fun values => pure (values ++ [(x, text)]) := by
  cases ds with
  | nil =>
    have hlit : evaluateDefines fs expand ctx (.cons x (.lit text) .nil) =
        ⟨[], .ok [(x, String.ofList (text.toList ++ []))]⟩ := rfl
    rw [Defines.set, hlit, List.append_nil, String.ofList_toList]
    rfl
  | cons name e rest =>
    obtain ⟨hname, hrest⟩ := not_or.mp (mt List.mem_cons.mpr hx)
    rw [Defines.set, if_neg (Ne.symm hname), evaluateDefines, evaluateDefines,
      evaluateDefines_set hrest text]
    simp only [Rendering.bind_then_assoc, Rendering.pure_then, List.cons_append]

lemma rebind_knows (h : ctx.Knows x value ctx') {d d' : Bindings String} {u u' : List String}
    (hd : ∀ n, n ≠ x → d'.get? n = d.get? n) (hu : ∀ n, n ≠ x → (n ∈ u' ↔ n ∈ u))
    (hx : (d'.get? x).or (if x ∈ u' then none else ctx.vars.get? x) =
      (d.get? x).or (if x ∈ u then none else value)) :
    (ctx.rebind d' u').Agrees (ctx'.rebind d u) := by
  refine ⟨h.root, fun n => ?_⟩
  rw [get?_rebind, get?_rebind, h.get?]
  by_cases hn : n = x
  · rw [hn, if_pos rfl, hx]
  · rw [if_neg hn, hd n hn]
    simp only [hu n hn]

lemma make_settled (hexp : expand.Respects) (h : ctx.Knows x value ctx') (path : Path)
    {define : Defines} {undefine : List String} (hx : x ∈ define.names ∨ x ∈ undefine) :
    (evaluateDefines fs expand ctx define >>= fun values =>
      makeFile fs expand (ctx.rebind (.ofList values) undefine) path) =
    evaluateDefines fs expand ctx define >>= fun values =>
      makeFile fs expand (ctx'.rebind (.ofList values) undefine) path := by
  refine Rendering.bind_congr fun values hvalues => ?_
  have hagrees : (ctx.rebind (.ofList values) undefine).Agrees
      (ctx'.rebind (.ofList values) undefine) := by
    apply rebind_knows h (fun _ _ => rfl) (fun _ _ => Iff.rfl)
    rcases hx with hx | hx
    · rw [← names_of_evaluateDefines hvalues] at hx
      obtain ⟨v, hv⟩ := Bindings.get?_ofList_of_mem hx
      rw [hv, Option.some_or, Option.some_or]
    · rw [if_pos hx, if_pos hx]
  exact (makeFile_agrees hexp hagrees path).symm

lemma make_passOn (hexp : expand.Respects) (h : ctx.Knows x value ctx') (path : Path)
    (define : Defines) (undefine : List String) :
    (evaluateDefines fs expand ctx (passOn x value define undefine).1 >>= fun values =>
      makeFile fs expand (ctx.rebind (.ofList values) (passOn x value define undefine).2) path) =
    evaluateDefines fs expand ctx define >>= fun values =>
      makeFile fs expand (ctx'.rebind (.ofList values) undefine) path := by
  cases value with
  | some text =>
    by_cases hx : x ∈ define.names ∨ x ∈ undefine
    · simp only [passOn, if_pos hx]
      exact make_settled hexp h path hx
    · obtain ⟨hnames, hundefine⟩ := not_or.mp hx
      simp only [passOn, if_neg hx, evaluateDefines_set hnames, Rendering.bind_then_assoc,
        Rendering.pure_then]
      refine Rendering.bind_congr fun values hvalues => ?_
      rw [← names_of_evaluateDefines hvalues] at hnames
      have hagrees : (ctx.rebind (.ofList (values ++ [(x, text)])) undefine).Agrees
          (ctx'.rebind (.ofList values) undefine) := by
        apply rebind_knows h (fun n hn => ?_) (fun _ _ => Iff.rfl)
        · rw [Bindings.get?_ofList_concat, if_pos rfl, Bindings.get?_ofList_of_not_mem hnames,
            if_neg hundefine, if_neg hundefine]
          rfl
        · rw [Bindings.get?_ofList_concat, if_neg hn]
      exact (makeFile_agrees hexp hagrees path).symm
  | none =>
    by_cases hx : x ∈ define.names
    · simp only [passOn, if_pos hx]
      exact make_settled hexp h path (.inl hx)
    · simp only [passOn, if_neg hx]
      refine Rendering.bind_congr fun values _ => ?_
      have hagrees : (ctx.rebind (.ofList values) (undefine ++ [x])).Agrees
          (ctx'.rebind (.ofList values) undefine) :=
        rebind_knows h (fun _ _ => rfl) (fun n hn => by simp [hn]) (by simp)
      exact (makeFile_agrees hexp hagrees path).symm

mutual

lemma evaluate_assuming (hexp : expand.Respects) (h : ctx.Knows x value ctx') :
    (e : Expr) → evaluate fs expand ctx (e.assuming x value) = evaluate fs expand ctx' e
  | .absent => rfl
  | .var name => by
    rw [assuming, evaluate, h.get?]
    by_cases hn : name = x
    · rw [if_pos hn, if_pos hn]
      cases value <;> rfl
    · rw [if_neg hn, if_neg hn, evaluate]
  | .lit text => rfl
  | .seq first second => by
    rw [assuming, evaluate, evaluate, evaluate_assuming hexp h first,
      evaluate_assuming hexp h second]
  | .equals left right => by
    rw [assuming, evaluate, evaluate, evaluate_assuming hexp h left,
      evaluate_assuming hexp h right]
  | .cond test success failure => by
    rw [assuming, evaluate, evaluate, evaluate_assuming hexp h test,
      evaluate_assuming hexp h success, evaluate_assuming hexp h failure]
  | .orElse first fallback => by
    rw [assuming, evaluate, evaluate, evaluate_assuming hexp h first,
      evaluate_assuming hexp h fallback]
  | .call function file define undefine => by
    have hlocate (name : List Char) : locate ctx' name = locate ctx name := by
      rw [locate, locate, h.root]
    have hfile := evaluate_assuming hexp h file
    rw [assuming, evaluate, evaluate, hfile]
    cases hf : Function.ofName? function with
    | none => rfl
    | some f =>
      cases f with
      | make =>
        have hdefine := evaluateDefines_assuming hexp h define
        simp only [if_true, make_passOn hexp h, hdefine, hlocate]
      | «exists» | «include» =>
        simp only [Option.some.injEq, reduceCtorEq, if_false, isEmpty_definesAssuming, hlocate]

lemma evaluateDefines_assuming (hexp : expand.Respects) (h : ctx.Knows x value ctx') :
    (ds : Defines) → evaluateDefines fs expand ctx (definesAssuming x value ds) =
      evaluateDefines fs expand ctx' ds
  | .nil => rfl
  | .cons name e rest => by
    rw [definesAssuming, evaluateDefines, evaluateDefines, evaluate_assuming hexp h e,
      evaluateDefines_assuming hexp h rest]

end

end

lemma knows_insert (ctx : Context) (x text : String) :
    ctx.Knows x (some text) { ctx with vars := ctx.vars.insert x text } :=
  ⟨rfl, fun n => Bindings.get?_insert ctx.vars x n text⟩

lemma knows_erase (ctx : Context) (x : String) :
    ctx.Knows x none { ctx with vars := ctx.vars.erase x } :=
  ⟨rfl, fun n => Bindings.get?_erase ctx.vars x n⟩

theorem render_assuming (fs : FileSystem) (ctx : Context) (x : String) (e : Expr) :
    (∀ text, render fs { ctx with vars := ctx.vars.insert x text } e =
      render fs ctx (e.assuming x (some text))) ∧
    render fs { ctx with vars := ctx.vars.erase x } e = render fs ctx (e.assuming x none) :=
  ⟨fun text => (evaluate_assuming (expand_respects fs) (knows_insert ctx x text) e).symm,
    (evaluate_assuming (expand_respects fs) (knows_erase ctx x) e).symm⟩

end Expr

end Scaffold
