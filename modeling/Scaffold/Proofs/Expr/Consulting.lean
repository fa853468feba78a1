import Scaffold.Proofs.Expr.Expansion
import Scaffold.Proofs.Expr.Through

/-! What an expansion asks the file system about. One that succeeds comes to the same wherever the
answers are the same, and wherever nesting may be deeper. -/

namespace Scaffold.Expr

def afterwards {α β : Type} (r : Rendering α) (next : α → List β) : List β :=
  match r.result with
  | .ok a => next a
  | .error _ => []

abbrev Question := Function × Path

mutual

/-- What an expression asks while it is evaluated. `inside` gives what is asked for in the files
that are made. -/
def consulted (fs : FileSystem) (expand : Expander) (inside : Context → List Char → List Question)
    (ctx : Context) : Expr → List Question
  | .absent | .var _ | .lit _ => []
  | .seq first second | .equals first second =>
    consulted fs expand inside ctx first ++
      afterwards (evaluate fs expand ctx first) fun _ => consulted fs expand inside ctx second
  | .cond test success failure =>
    consulted fs expand inside ctx test ++
      afterwards (evaluate fs expand ctx test) fun t =>
        if t then consulted fs expand inside ctx success
        else consulted fs expand inside ctx failure
  | .orElse first fallback =>
    consulted fs expand inside ctx first ++
      afterwards (evaluate fs expand ctx first) fun f =>
        if f then [] else consulted fs expand inside ctx fallback
  | .call function file define undefine =>
    match Function.ofName? function with
    | none => []
    | some .make =>
      consulted fs expand inside ctx file ++
        afterwards (evaluate fs expand ctx file).capture fun name =>
          let path := locate ctx name.1
          (.make, path) :: afterwards (present fs path) fun b =>
            if b then
              consultedDefines fs expand inside ctx define ++
                afterwards (evaluateDefines fs expand ctx define) fun values =>
                  match readText fs path with
                  | .ok cs => inside (ctx.rebind (.ofList values) undefine) cs
                  | .error _ => []
            else []
    | some f =>
      if define.isEmpty ∧ undefine.isEmpty then
        consulted fs expand inside ctx file ++
          afterwards (evaluate fs expand ctx file).capture fun name => [(f, locate ctx name.1)]
      else []

def consultedDefines (fs : FileSystem) (expand : Expander)
    (inside : Context → List Char → List Question) (ctx : Context) : Defines → List Question
  | .nil => []
  | .cons _ value rest =>
    consulted fs expand inside ctx value ++
      afterwards (evaluate fs expand ctx value) fun _ => consultedDefines fs expand inside ctx rest

end

def consultedIn (eval : Expr → Rendering Bool) (asked : Expr → List Question) :
    List Segment → List Question
  | [] => []
  | .char _ :: ss => consultedIn eval asked ss
  | .expr e :: ss => asked e ++ afterwards (eval e) fun _ => consultedIn eval asked ss
  | .fault _ :: _ => []

def consultedAt (fs : FileSystem) : Nat → Context → List Char → List Question
  | 0 => fun _ _ => []
  | depth + 1 => fun ctx cs =>
    consultedIn (evaluate fs (expandAt fs depth) ctx)
      (consulted fs (expandAt fs depth) (consultedAt fs depth) ctx) (segments cs)

/-- The expansion of the text asks this, however deep it nests. -/
def Asks (fs : FileSystem) (ctx : Context) (cs : List Char) (q : Question) : Prop :=
  ∃ depth, q ∈ consultedAt fs depth ctx cs

def Consults (fs : FileSystem) (ctx : Context) (cs : List Char) (p : Path) : Prop :=
  ∃ f, Asks fs ctx cs (f, p)

/-- If the first succeeds, or else `always`, the second is the same. -/
def Lasts {α : Type} (always : Prop) (r r' : Rendering α) : Prop :=
  (always ∨ ∃ a, r.result = .ok a) → r' = r

section

variable {α β : Type} {r r' : Rendering α} {f f' : α → Rendering β} {fs fs' : FileSystem}
  {see : Moments} {expand : Expander} {expand' : Moments → Expander}
  {inside : Context → List Char → List Question} {ctx : Context} {path : Path} {always : Prop}

lemma lasts_refl (always : Prop) (r : Rendering α) : Lasts always r r := fun _ => rfl

lemma capture_eq_ok {c : List Char × α} (h : r.capture.result = .ok c) :
    r.result = .ok c.2 := by
  rw [Rendering.capture] at h
  cases hr : r.result with
  | error e =>
    rw [hr] at h
    cases h
  | ok a =>
    rw [hr] at h
    exact congrArg (fun x => Except.ok x.2) (Except.ok.inj h)

lemma Lasts.map (h : Lasts always r r') (g : Rendering α → Rendering β)
    (hg : ∀ b, (g r).result = .ok b → ∃ a, r.result = .ok a) : Lasts always (g r) (g r') :=
  fun hk => congrArg g (h (hk.imp id fun ⟨b, hb⟩ => hg b hb))

lemma Lasts.bind (h : Lasts always r r') (hf : ∀ a, r.result = .ok a → Lasts always (f a) (f' a)) :
    Lasts always (r >>= f) (r' >>= f') := by
  intro hk
  rw [h (hk.imp id fun ⟨b, hb⟩ => (Rendering.result_bind_eq_ok hb).imp fun _ ha => ha.1)]
  cases hr : r.result with
  | error e => rw [Rendering.bind_of_error hr, Rendering.bind_of_error hr]
  | ok a =>
    rw [Rendering.bind_of_ok hr] at hk
    rw [Rendering.bind_of_ok hr, Rendering.bind_of_ok hr, hf a hr hk]

lemma Lasts.capture (h : Lasts always r r') : Lasts always r.capture r'.capture :=
  h.map _ fun _ hb => ⟨_, capture_eq_ok hb⟩

lemma Lasts.mapFailure (h : Lasts always r r') (g : Failure → Failure) :
    Lasts always (r.mapFailure g) (r'.mapFailure g) := by
  refine h.map _ fun b hb => ?_
  cases hr : r.result with
  | error e =>
    rw [Rendering.mapFailure, hr] at hb
    cases hb
  | ok a => exact ⟨a, rfl⟩

lemma afterwards_of_ok {a : α} (h : r.result = .ok a) (next : α → List β) :
    afterwards r next = next a := by
  rw [afterwards, h]

lemma not_mem_afterwards_nil {b : β} : b ∉ afterwards r fun _ => [] := by
  rw [afterwards]
  split <;> exact List.not_mem_nil

lemma present_of_targetAt (h : fs'.targetAt path = fs.targetAt path) :
    present fs' path = present fs path := by
  rw [present, present, FileSystem.exists?, FileSystem.exists?, h]

lemma readText_of_targetAt (h : fs'.targetAt path = fs.targetAt path) :
    readText fs' path = readText fs path := by
  rw [readText, readText, FileSystem.readFile, FileSystem.readFile, h]

lemma makeFile_lasts {expand' : Expander} (hread : readText fs' path = readText fs path)
    (h : ∀ cs, readText fs path = .ok cs → Lasts always (expand ctx cs) (expand' ctx cs)) :
    Lasts always (makeFile fs expand ctx path) (makeFile fs' expand' ctx path) := by
  rw [makeFile, makeFile, hread]
  apply Lasts.mapFailure
  cases hr : readText fs path with
  | error o => exact lasts_refl _ _
  | ok cs => exact (h cs hr).bind fun _ _ => lasts_refl _ _

/-- The question has the same answer there. Whether a file exists does not depend on what it
holds. -/
def Agrees (fs fs' : FileSystem) (q : Question) : Prop :=
  present fs' q.2 = present fs q.2 ∧ (q.1 ≠ .exists → readText fs' q.2 = readText fs q.2)

lemma agrees_of_targetAt {q : Question} (h : fs'.targetAt q.2 = fs.targetAt q.2) :
    Agrees fs fs' q :=
  ⟨present_of_targetAt h, fun _ => readText_of_targetAt h⟩

def SameAt (fs : FileSystem) (see : Moments) (qs : List Question) : Prop :=
  ∀ q ∈ qs, ∀ point, Agrees fs (see point) q

lemma SameAt.part {qs : List Question} (h : SameAt fs see qs) (i : Nat) :
    SameAt fs (see.part i) qs :=
  fun q hq point => h q hq (i :: point)

lemma sameAt_append {qs qs' : List Question} :
    SameAt fs see (qs ++ qs') ↔ SameAt fs see qs ∧ SameAt fs see qs' :=
  List.forall_mem_append

lemma sameAt_afterwards {qs : α → List Question} {a : α} (h : SameAt fs see (afterwards r qs))
    (ha : r.result = .ok a) : SameAt fs see (qs a) := by
  rwa [afterwards_of_ok ha] at h

def LastsInside (always : Prop) (fs : FileSystem) (expand : Expander) (expand' : Moments → Expander)
    (inside : Context → List Char → List Question) : Prop :=
  ∀ see ctx cs, SameAt fs see (inside ctx cs) → Lasts always (expand ctx cs) (expand' see ctx cs)

mutual

lemma evaluate_lasts (hexp : LastsInside always fs expand expand' inside) {see : Moments} :
    (e : Expr) → SameAt fs see (consulted fs expand inside ctx e) →
      Lasts always (evaluate fs expand ctx e) (evaluateThrough expand' ctx see e)
  | .absent, _ | .lit _, _ => by
    rw [evaluate, evaluateThrough]
    exact lasts_refl _ _
  | .var _, _ => by
    rw [evaluate, evaluateThrough]
    exact lasts_refl _ _
  | .seq first second, hsame => by
    rw [consulted, sameAt_append] at hsame
    rw [evaluate, evaluateThrough]
    exact (evaluate_lasts hexp first (hsame.1.part 0)).bind fun _ hp =>
      (evaluate_lasts hexp second ((sameAt_afterwards hsame.2 hp).part 1)).bind
        fun _ _ => lasts_refl _ _
  | .equals left right, hsame => by
    rw [consulted, sameAt_append] at hsame
    rw [evaluate, evaluateThrough]
    refine (evaluate_lasts hexp left (hsame.1.part 0)).capture.bind fun _ hl => ?_
    have hright := (sameAt_afterwards hsame.2 (capture_eq_ok hl)).part 1
    exact (evaluate_lasts hexp right hright).capture.bind fun _ _ => lasts_refl _ _
  | .cond test success failure, hsame => by
    rw [consulted, sameAt_append] at hsame
    rw [evaluate, evaluateThrough]
    refine (evaluate_lasts hexp test (hsame.1.part 0)).capture.bind fun t ht => ?_
    have hbranch := (sameAt_afterwards hsame.2 (capture_eq_ok ht)).part 1
    by_cases htrue : t.2 = true
    · rw [if_pos htrue] at hbranch ⊢
      rw [if_pos htrue]
      exact evaluate_lasts hexp success hbranch
    · rw [if_neg htrue] at hbranch ⊢
      rw [if_neg htrue]
      exact evaluate_lasts hexp failure hbranch
  | .orElse first fallback, hsame => by
    rw [consulted, sameAt_append] at hsame
    rw [evaluate, evaluateThrough]
    refine (evaluate_lasts hexp first (hsame.1.part 0)).capture.bind fun f hf => ?_
    have hbranch := (sameAt_afterwards hsame.2 (capture_eq_ok hf)).part 1
    by_cases htrue : f.2 = true
    · rw [if_pos htrue, if_pos htrue]
      exact lasts_refl _ _
    · rw [if_neg htrue] at hbranch ⊢
      rw [if_neg htrue]
      exact evaluate_lasts hexp fallback hbranch
  | .call function file define undefine, hsame => by
    rw [consulted] at hsame
    rw [evaluate, evaluateThrough]
    cases hfun : Function.ofName? function with
    | none => exact lasts_refl _ _
    | some f =>
      rw [hfun] at hsame
      cases f with
      | make =>
        rw [sameAt_append] at hsame
        refine (evaluate_lasts hexp file (hsame.1.part 0)).capture.bind fun name hname => ?_
        have hasked := sameAt_afterwards hsame.2 hname
        obtain ⟨hpath, hrest⟩ := List.forall_mem_cons.mp hasked
        have hthere := (hpath [1]).1
        dsimp only at hthere ⊢
        rw [hthere]
        refine (lasts_refl _ _).bind fun b hb => ?_
        have hinside := sameAt_afterwards hrest hb
        cases b with
        | false =>
          rw [if_neg Bool.false_ne_true, if_neg Bool.false_ne_true]
          exact lasts_refl _ _
        | true =>
          rw [if_pos rfl] at hinside
          obtain ⟨hdefine, hmade⟩ := sameAt_append.mp hinside
          rw [if_pos rfl, if_pos rfl]
          refine (evaluateDefines_lasts hexp define (hdefine.part 2)).bind fun values hvalues => ?_
          have hread := (hpath [3]).2 nofun
          have hcontent := (sameAt_afterwards hmade hvalues).part 4
          refine makeFile_lasts hread fun cs hcs => hexp _ _ cs ?_
          rwa [hcs] at hcontent
      | «exists» | «include» =>
        dsimp only at hsame ⊢
        by_cases hempty : define.isEmpty ∧ undefine.isEmpty
        · rw [if_pos hempty, sameAt_append] at hsame
          rw [if_pos hempty, if_pos hempty]
          refine (evaluate_lasts hexp file (hsame.1.part 0)).capture.bind fun name hname => ?_
          have hasked := sameAt_afterwards hsame.2 hname
          have hpath := List.forall_mem_singleton.mp hasked [1]
          first
            | exact fun _ => hpath.1
            | rw [includeFile, includeFile, hpath.1, hpath.2 nofun]; exact lasts_refl _ _
        · rw [if_neg hempty, if_neg hempty]
          exact lasts_refl _ _

lemma evaluateDefines_lasts (hexp : LastsInside always fs expand expand' inside) {see : Moments} :
    (ds : Defines) → SameAt fs see (consultedDefines fs expand inside ctx ds) →
      Lasts always (evaluateDefines fs expand ctx ds) (evaluateDefinesThrough expand' ctx see ds)
  | .nil, _ => by
    rw [evaluateDefines, evaluateDefinesThrough]
    exact lasts_refl _ _
  | .cons name value rest, hsame => by
    rw [consultedDefines, sameAt_append] at hsame
    rw [evaluateDefines, evaluateDefinesThrough]
    exact (evaluate_lasts hexp value (hsame.1.part 0)).capture.bind fun _ hv =>
      (evaluateDefines_lasts hexp rest
        ((sameAt_afterwards hsame.2 (capture_eq_ok hv)).part 1)).bind fun _ _ => lasts_refl _ _

end

lemma expandSegments_lasts {eval : Expr → Rendering Bool} {eval' : Moments → Expr → Rendering Bool}
    {asked : Expr → List Question} {ss : List Segment}
    (h : ∀ see e, SameAt fs see (asked e) → Lasts always (eval e) (eval' see e))
    (hsame : SameAt fs see (consultedIn eval asked ss)) :
    Lasts always (expandSegments eval ss) (expandSegmentsThrough eval' see ss) := by
  induction ss generalizing see with
  | nil => exact lasts_refl _ _
  | cons s ss ih =>
    cases s with
    | char c => exact (lasts_refl _ _).bind fun _ _ => ih hsame
    | expr e =>
      obtain ⟨hfirst, hrest⟩ := sameAt_append.mp hsame
      exact (h _ e (hfirst.part 0)).bind fun _ ha => ih ((sameAt_afterwards hrest ha).part 1)
    | fault f => exact lasts_refl _ _

lemma expandAt_lasts {depth depth' : Nat} (hle : depth ≤ depth')
    (hsame : always → depth' = depth) :
    LastsInside always fs (expandAt fs depth) (expandThrough depth') (consultedAt fs depth) := by
  induction depth generalizing depth' with
  | zero =>
    rintro see ctx cs - (hk | ⟨a, ha⟩)
    · rw [hsame hk]
      rfl
    · cases ha
  | succ depth ih =>
    obtain ⟨deeper, rfl⟩ := Nat.exists_eq_add_one_of_ne_zero (Nat.ne_zero_of_lt hle)
    intro see ctx cs hasked
    exact expandSegments_lasts (fun _ e => evaluate_lasts (ih (Nat.le_of_succ_le_succ hle)
      fun hk => Nat.succ.inj (hsame hk)) e) hasked

end

lemma expand_lasts {fs fs' : FileSystem} {ctx : Context} {cs : List Char}
    (hsame : ∀ p, Consults fs ctx cs p → fs'.targetAt p = fs.targetAt p)
    (hsize : fs.entries.size ≤ fs'.entries.size) :
    Lasts False (expand fs ctx cs) (expand fs' ctx cs) := by
  have hasked (q : Question) (hq : q ∈ consultedAt fs (depthLimit fs) ctx cs) (_ : List Nat) :
      Agrees fs fs' q :=
    agrees_of_targetAt (hsame q.2 ⟨q.1, depthLimit fs, hq⟩)
  have hlasts : Lasts False (expand fs ctx cs)
      (expandThrough (depthLimit fs') (fun _ => fs') ctx cs) :=
    expandAt_lasts (Nat.add_le_add_right hsize 300) False.elim _ ctx cs hasked
  rwa [expandThrough_const] at hlasts

lemma expandThrough_eq {fs : FileSystem} {see : Moments} {ctx : Context} {cs : List Char}
    (hsame : ∀ q, Asks fs ctx cs q → ∀ point, Agrees fs (see point) q) :
    expandThrough (depthLimit fs) see ctx cs = expand fs ctx cs :=
  expandAt_lasts (Nat.le_refl _) (fun _ => rfl) see ctx cs (fun q hq => hsame q ⟨_, hq⟩)
    (.inl trivial)

end Scaffold.Expr
