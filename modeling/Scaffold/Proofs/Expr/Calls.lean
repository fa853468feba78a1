import Scaffold.Proofs.Expr.Absence
import Scaffold.Proofs.Expr.Knowledge
import Scaffold.Proofs.Expr.Sources
import Scaffold.Proofs.Expr.Spelling
import Scaffold.Proofs.Expr.Straying

/-! What making a file comes to: the file is expanded for what its last definition makes of each
name, else for nothing where the name is undefined, else for what the caller knows. All definitions
are evaluated for the caller. -/

namespace Scaffold

namespace Defines

def get? (ds : Defines) (n : String) : Option Expr :=
  Bindings.find n ds.toList

lemma names_eq (ds : Defines) : ds.names = ds.toList.map Prod.fst := by
  cases ds with
  | nil => rfl
  | cons n v rest => rw [names, names_eq rest, toList, List.map_cons]

lemma get?_set (ds : Defines) (m : String) (v : Expr) (n : String) :
    (ds.set m v).get? n = if m = n then some v else ds.get? n := by
  cases ds with
  | nil => rfl
  | cons k w rest =>
    have ih := get?_set rest m v n
    by_cases hk : k = m
    · subst hk
      by_cases hn : k = n <;> simp [set, get?, toList, Bindings.find, hn]
    · by_cases hn : k = n
      · subst hn
        simp [set, get?, toList, Bindings.find, hk, Ne.symm hk]
      · simpa [set, get?, toList, Bindings.find, hk, hn] using ih

end Defines

namespace Expr

structure Source where
  tokens : List Token
  expr : Expr
  parsed : parseTokens .text tokens = .ok expr

inductive Argument
  | undefine (name : String)
  | clear (name : String)
  | define (name : String) (value : Source)

namespace Argument

def tokens : Argument → List Token
  | .undefine n => [.comma, .minus, .ident n]
  | .clear n => [.comma, .ident n]
  | .define n v => .comma :: .ident n :: .assign :: v.tokens

def value? (n : String) : Argument → Option Expr
  | .undefine _ => none
  | .clear m => if m = n then some .absent else none
  | .define m v => if m = n then some v.expr else none

def undefines (n : String) : Argument → Bool
  | .undefine m => m = n
  | _ => false

def addTo (c : OpenCall) : Argument → OpenCall
  | .undefine n => c.unset n
  | .clear n => c.set n .absent
  | .define n v => c.set n v.expr

end Argument

def callTokens (function : String) (file : Source) (args : List Argument) : List Token :=
  .pound :: .ident function :: .openParen ::
    (file.tokens ++ (args.flatMap Argument.tokens ++ [.closeParen]))

def opened (function : String) (file : Source) (args : List Argument) : OpenCall :=
  args.foldl Argument.addTo ⟨function, file.expr, .nil, []⟩

lemma close_foldl (args : List Argument) (c : OpenCall) :
    (args.foldl Argument.addTo c).close = .call c.function c.file
      (args.foldl Argument.addTo c).define (args.foldl Argument.addTo c).undefine := by
  induction args generalizing c with
  | nil => rfl
  | cons a args ih =>
    rw [List.foldl_cons, ih]
    cases a <;> rfl

lemma close_opened (function : String) (file : Source) (args : List Argument) :
    (opened function file args).close = .call function file.expr
      (opened function file args).define (opened function file args).undefine :=
  close_foldl args _

namespace EndsArgument

variable {p : Parser} {outer : Level} {c : OpenCall} {hs : List Holder}

lemma argument (a : Argument) (h : EndsArgument p outer c hs) :
    ∃ q, p.feed a.tokens = some q ∧ EndsArgument q outer (a.addTo c) hs := by
  cases a with
  | undefine n => exact h.undefines [n]
  | clear n =>
    have hname : Parser.accept ⟨.argument outer c, hs⟩ (.ident n) =
      some ⟨.named outer c n, hs⟩ := rfl
    refine ⟨⟨.named outer c n, hs⟩, ?_, ?_⟩
    · rw [Argument.tokens, Parser.feed_cons, h.comma, Option.bind_some, Parser.feed_cons, hname]
      rfl
    · rintro t (rfl | rfl) <;> rfl
  | define n v => exact h.define n (Parser.feed_whole v.parsed)

lemma arguments (args : List Argument) (h : EndsArgument p outer c hs) :
    ∃ q, p.feed (args.flatMap Argument.tokens) = some q ∧
      EndsArgument q outer (args.foldl Argument.addTo c) hs := by
  induction args generalizing p c with
  | nil => exact ⟨p, rfl, h⟩
  | cons a args ih =>
    obtain ⟨q, hq, ha⟩ := h.argument a
    obtain ⟨r, hr, hargs⟩ := ih ha
    refine ⟨r, ?_, hargs⟩
    rw [List.flatMap_cons, Parser.feed_append, hq]
    exact hr

end EndsArgument

lemma parse_call (function : String) (file : Source) (args : List Argument) :
    parseTokens .text (callTokens function file args) = .ok (opened function file args).close := by
  obtain ⟨l, hl, hv⟩ := Parser.feed_whole file.parsed [.file (.start []) function]
  have hfile : EndsArgument ⟨.terms l, [.file (.start []) function]⟩ (.start [])
      ⟨function, l.value, .nil, []⟩ [] := EndsArgument.of_file l function
  rw [hv] at hfile
  obtain ⟨q, hq, hend⟩ := hfile.arguments args
  have hopen : Parser.start.feed [.pound, .ident function, .openParen] =
      some ⟨.terms (.start []), [.file (.start []) function]⟩ := rfl
  have hfeed : Parser.start.feed (callTokens function file args) =
      some ⟨.terms ⟨[], [], (opened function file args).close⟩, []⟩ := by
    have hsplit : callTokens function file args = [.pound, .ident function, .openParen] ++
        (file.tokens ++ (args.flatMap Argument.tokens ++ [.closeParen])) := rfl
    rw [hsplit, Parser.feed_append, hopen, Option.bind_some, Parser.feed_append, hl,
      Option.bind_some, Parser.feed_append, hq, Option.bind_some, Parser.feed_cons,
      hend.closeParen, ← Level.start_add]
    rfl
  exact Parser.parseTokens_of_feed hfeed

section

variable {args : List Argument} {c : OpenCall} {n : String}

def definitions (args : List Argument) (n : String) : List Expr :=
  args.filterMap (Argument.value? n)

def isUndefined (args : List Argument) (n : String) : Bool :=
  args.any (Argument.undefines n)

lemma definitions_cons (a : Argument) (args : List Argument) (n : String) :
    definitions (a :: args) n = (a.value? n).toList ++ definitions args n := by
  cases h : a.value? n with
  | none => exact List.filterMap_cons_none h
  | some v => exact List.filterMap_cons_some h

lemma get?_addTo (c : OpenCall) (a : Argument) (n : String) :
    (a.addTo c).define.get? n = (a.value? n).or (c.define.get? n) := by
  cases a with
  | undefine m => rfl
  | clear m | define m v =>
    by_cases h : m = n <;> simp [Argument.addTo, OpenCall.set, Defines.get?_set, Argument.value?, h]

lemma get?_foldl (args : List Argument) (c : OpenCall) (n : String) :
    (args.foldl Argument.addTo c).define.get? n =
      (definitions args n).getLast?.or (c.define.get? n) := by
  induction args generalizing c with
  | nil => rfl
  | cons a args ih =>
    rw [List.foldl_cons, ih, get?_addTo, definitions_cons, List.getLast?_append, Option.or_assoc]
    cases a.value? n <;> rfl

lemma nodup_foldl (args : List Argument) (h : c.define.names.Nodup) :
    (args.foldl Argument.addTo c).define.names.Nodup := by
  induction args generalizing c with
  | nil => exact h
  | cons a args ih =>
    apply ih
    cases a with
    | undefine m => exact h
    | clear m | define m v => exact nodup_set h m _

lemma mem_undefine_foldl (args : List Argument) (c : OpenCall) (n : String) :
    n ∈ (args.foldl Argument.addTo c).undefine ↔ n ∈ c.undefine ∨ isUndefined args n = true := by
  induction args generalizing c with
  | nil => simp [isUndefined]
  | cons a args ih =>
    rw [List.foldl_cons, ih]
    cases a with
    | undefine m =>
      have hm : n = m ↔ m = n := eq_comm
      simp [Argument.addTo, OpenCall.unset, isUndefined, Argument.undefines, or_assoc, hm]
    | clear m | define m v =>
      simp [Argument.addTo, OpenCall.set, isUndefined, Argument.undefines]

end

lemma evaluateDefines_of_ok {fs : FileSystem} {expand : Expander} {ctx : Context} (ds : Defines)
    (h : ∀ d ∈ ds.toList, ∃ p, (evaluate fs expand ctx d.2).result = .ok p) :
    evaluateDefines fs expand ctx ds =
      pure (ds.toList.map fun d => (d.1, String.ofList (evaluate fs expand ctx d.2).text)) := by
  cases ds with
  | nil => rfl
  | cons name value rest =>
    obtain ⟨p, hp⟩ := h (name, value) List.mem_cons_self
    have hvalue : evaluate fs expand ctx value = ⟨(evaluate fs expand ctx value).text, .ok p⟩ := by
      rw [← hp]
    have hrest := evaluateDefines_of_ok rest fun d hd => h d (List.mem_cons_of_mem _ hd)
    rw [evaluateDefines, Rendering.capture_of_ok hvalue, Rendering.pure_then, hrest,
      Rendering.pure_then]
    rfl

def duringMake (path : Path) : Failure → Failure
  | .obstacle o => .unreadable Function.make.name path o
  | e => e

section

variable {fs : FileSystem} {ctx : Context} {path : Path} {text name : List Char} {p : Bool}
  {file : Source} {args : List Argument}

lemma blame_make {e : Failure} (path : Path) (h : e.isForeseen = true ∨ Strays fs e) :
    blame .make path e = duringMake path e := by
  rcases h with h | rfl | ⟨q, -, rfl⟩
  · cases e with
    | obstacle o => cases h
    | _ => rfl
  · rfl
  · rfl

lemma makeFile_of_text (h : readText fs path = .ok text) :
    makeFile fs (expand fs) ctx path = ⟨(expand fs ctx text).text,
      ((expand fs ctx text).result.mapError (duringMake path)).map fun _ => true⟩ := by
  have hmake : makeFile fs (expand fs) ctx path =
      Rendering.mapFailure (blame .make path) (expand fs ctx text >>= fun _ => pure true) := by
    rw [makeFile, h]
  rw [hmake, Rendering.mapFailure]
  cases hr : (expand fs ctx text).result with
  | error e =>
    have he := (expandAt_tame fs (depthLimit fs) ctx text e hr).imp
      Failure.isForeseen_of_isOfExpression id
    rw [Rendering.bind_eq, hr]
    exact congrArg (fun d => Rendering.mk _ (.error d)) (blame_make path he)
  | ok u =>
    rw [Rendering.bind_of_ok hr]
    exact congrArg (Rendering.mk · (.ok true)) (List.append_nil _)

def passed (fs : FileSystem) (ctx : Context) (args : List Argument) (n : String) : Option String :=
  match (definitions args n).getLast? with
  | some v => some (String.ofList (render fs ctx v).text)
  | none => if isUndefined args n then none else ctx.vars.get? n

def Settled (fs : FileSystem) (ctx : Context) (args : List Argument) : Prop :=
  ∀ n v, (definitions args n).getLast? = some v → ∃ p, (render fs ctx v).result = .ok p

lemma get?_opened (file : Source) (args : List Argument) (n : String) :
    (opened "make" file args).define.get? n = (definitions args n).getLast? := by
  rw [opened, get?_foldl]
  exact Option.or_none

lemma nodup_opened (file : Source) (args : List Argument) :
    (opened "make" file args).define.names.Nodup :=
  nodup_foldl args List.nodup_nil

lemma mem_undefine_opened (file : Source) (args : List Argument) (n : String) :
    n ∈ (opened "make" file args).undefine ↔ isUndefined args n = true := by
  simp [opened, mem_undefine_foldl]

lemma Settled.inner (h : Settled fs ctx args) (file : Source) :
    ∃ values, evaluateDefines fs (expand fs) ctx (opened "make" file args).define = pure values ∧
      ∀ n, (ctx.rebind (.ofList values) (opened "make" file args).undefine).vars.get? n =
        passed fs ctx args n := by
  have hnodup := nodup_opened file args
  rw [Defines.names_eq] at hnodup
  have hok : ∀ d ∈ (opened "make" file args).define.toList,
      ∃ p, (evaluate fs (expand fs) ctx d.2).result = .ok p := by
    intro d hd
    apply h d.1
    rw [← get?_opened file]
    exact Bindings.find_of_mem hnodup hd
  refine ⟨_, evaluateDefines_of_ok _ hok, fun n => ?_⟩
  rw [get?_rebind, Bindings.get?_ofList,
    Bindings.find_reverse (by simpa [Function.comp_def] using hnodup),
    Bindings.find_map fun v => String.ofList (evaluate fs (expand fs) ctx v).text]
  have hget : Bindings.find n (opened "make" file args).define.toList =
    (definitions args n).getLast? := get?_opened file args n
  rw [hget, passed]
  cases (definitions args n).getLast? with
  | some v => rfl
  | none => simp only [mem_undefine_opened]; rfl

lemma render_call_make {file : Expr} (hname : render fs ctx file = ⟨name, .ok p⟩)
    (define : Defines) (undefine : List String) :
    render fs ctx (.call "make" file define undefine) =
      present fs (locate ctx name) >>= fun b => if b then do
          let values ← evaluateDefines fs (expand fs) ctx define
          makeFile fs (expand fs) (ctx.rebind (.ofList values) undefine) (locate ctx name)
        else pure false := by
  have hfile : evaluate fs (expand fs) ctx file = ⟨name, .ok p⟩ := hname
  rw [render, evaluate, Rendering.capture_of_ok hfile]
  rfl

lemma Settled.render_call (h : Settled fs ctx args)
    (hname : render fs ctx file.expr = ⟨name, .ok p⟩) :
    ∃ inner : Context, inner.root = ctx.root ∧
      (∀ n, inner.vars.get? n = passed fs ctx args n) ∧
      render fs ctx (opened "make" file args).close =
        present fs (locate ctx name) >>= fun b =>
          if b then makeFile fs (expand fs) inner (locate ctx name) else pure false := by
  obtain ⟨values, hvalues, hget⟩ := h.inner file
  refine ⟨ctx.rebind (.ofList values) (opened "make" file args).undefine, rfl, hget, ?_⟩
  rw [close_opened, render_call_make hname, hvalues]
  rfl

lemma render_of_missing (hname : render fs ctx file.expr = ⟨name, .ok p⟩)
    (h : fs.exists? (locate ctx name) = .ok false) (args : List Argument) :
    render fs ctx (opened "make" file args).close = ⟨[], .ok false⟩ := by
  have hpresent : present fs (locate ctx name) = pure false := by rw [present, h]
  rw [close_opened, render_call_make hname, hpresent, Rendering.pure_then]
  rfl

lemma passed_congr {args' : List Argument} (hargs : args'.Perm args)
    (hdefs : ∀ n, definitions args' n = definitions args n) (n : String) :
    passed fs ctx args' n = passed fs ctx args n := by
  have hundefined : isUndefined args' n = isUndefined args n := hargs.any_eq
  rw [passed, passed, hdefs, hundefined]

end

/-- Whatever the arguments, a call that names no file is absent and writes nothing. A call that
names a file writes what the file expands to, for what the arguments and the caller know: of each
name the text of its last definition, as the caller evaluates it, else nothing where an argument
undefines it, else what the caller knows. In what order the arguments come does not matter, as long
as the definitions of one name stay in theirs. -/
theorem render_make (fs : FileSystem) (ctx : Context) (s : String) (file : Source)
    (args : List Argument) (name : List Char) (p : Bool)
    (hs : tokenize s.toList = .ok (callTokens "make" file args))
    (hname : render fs ctx file.expr = ⟨name, .ok p⟩) :
    (fs.exists? (locate ctx name) = .ok false →
      renderText fs ctx s = .ok ⟨[], .ok false⟩) ∧
    (∀ text, readText fs (locate ctx name) = .ok text → Settled fs ctx args →
      ∃ inner : Context, inner.root = ctx.root ∧
        (∀ n, inner.vars.get? n = passed fs ctx args n) ∧
        renderText fs ctx s = .ok ⟨(expand fs inner text).text,
          ((expand fs inner text).result.mapError (duringMake (locate ctx name))).map
            fun _ => true⟩) ∧
    (∀ n v, (definitions args n).getLast? = some v → (render fs ctx v).result = .ok false →
      passed fs ctx args n = some "") ∧
    ∀ s' args', tokenize s'.toList = .ok (callTokens "make" file args') → args'.Perm args →
      (∀ n, definitions args' n = definitions args n) →
      fs.exists? (locate ctx name) = .ok false ∨ Settled fs ctx args →
      renderText fs ctx s' = renderText fs ctx s := by
  have hread (s : String) (args : List Argument)
      (hs : tokenize s.toList = .ok (callTokens "make" file args)) :
      renderText fs ctx s = .ok (render fs ctx (opened "make" file args).close) :=
    renderText_eq_ok_iff.mpr ⟨_, ofText_eq_ok_iff.mpr ⟨_, hs, parse_call "make" file args⟩, rfl⟩
  rw [hread s args hs]
  refine ⟨fun hmissing => ?_, fun text htext hsettled => ?_, fun n v hv habsent => ?_,
    fun s' args' hs' hperm hdefs h => ?_⟩
  · rw [render_of_missing hname hmissing]
  · obtain ⟨inner, hroot, hget, hrender⟩ := hsettled.render_call hname
    have hpresent : present fs (locate ctx name) = pure true := by
      rw [present, exists?_of_readText htext]
    refine ⟨inner, hroot, hget, congrArg Except.ok ?_⟩
    rw [hrender, hpresent, Rendering.pure_then, if_pos rfl, makeFile_of_text htext]
  · have hempty : (render fs ctx v).text = [] := evaluate_silent v habsent
    simp only [passed, hv, hempty, String.ofList_nil]
  · rw [hread s' args' hs']
    rcases h with hmissing | hsettled
    · rw [render_of_missing hname hmissing, render_of_missing hname hmissing]
    · have hsettled' : Settled fs ctx args' := fun n v hv => hsettled n v (hdefs n ▸ hv)
      obtain ⟨inner, hroot, hget, hrender⟩ := hsettled.render_call hname
      obtain ⟨inner', hroot', hget', hrender'⟩ := hsettled'.render_call hname
      have hagrees : inner.Agrees inner' :=
        ⟨hroot'.trans hroot.symm, fun n => by rw [hget', hget, passed_congr hperm hdefs]⟩
      rw [hrender, hrender']
      simp only [makeFile_agrees (expand_respects fs) hagrees]

def letterFile : FileSystem :=
  FileSystem.empty.set ["f"] (.file "${n}${m}".toUTF8 0o644)

def letterContext : Context :=
  ⟨.ofList [("m", "b")], .here⟩

def letterArguments : List Argument :=
  [.define "n" ⟨[.literal "a"], .lit "a", rfl⟩, .undefine "n",
    .define "n" ⟨[.ident "m"], .var "m", rfl⟩]

lemma settled_letterArguments : Settled letterFile letterContext letterArguments := by
  intro n v hv
  have hmem := List.mem_of_getLast? hv
  by_cases hn : "n" = n
  · simp only [definitions, letterArguments, Argument.value?, hn, if_true, List.filterMap_cons,
      List.filterMap_nil, List.mem_cons, List.not_mem_nil, or_false] at hmem
    rcases hmem with rfl | rfl
    · exact ⟨true, rfl⟩
    · exact ⟨true, rfl⟩
  · simp [definitions, letterArguments, Argument.value?, hn] at hmem

lemma passed_letterArguments (n : String) :
    passed letterFile letterContext letterArguments n =
      (letterContext.vars.insert "n" "b").get? n := by
  rw [Bindings.get?_insert]
  by_cases hn : n = "n"
  · subst hn
    rfl
  · have hne : ¬ "n" = n := Ne.symm hn
    simp [passed, definitions, isUndefined, letterArguments, Argument.value?, Argument.undefines,
      hn, hne]

theorem render_make_letter :
    renderText letterFile letterContext "#make('f', n='a', -n, n=m)" =
      .ok ⟨['b', 'b'], .ok true⟩ := by
  have htext : readText letterFile (locate letterContext ['f']) =
      .ok "${n}${m}".toList := by
    decide +kernel
  obtain ⟨-, hmade, -⟩ := render_make letterFile letterContext "#make('f', n='a', -n, n=m)"
    ⟨[.literal "f"], .lit "f", rfl⟩ letterArguments ['f'] true rfl rfl
  obtain ⟨inner, hroot, hget, h⟩ := hmade _ htext settled_letterArguments
  have hagrees : (⟨letterContext.vars.insert "n" "b", .here⟩ : Context).Agrees inner :=
    ⟨hroot, fun n => by rw [hget, passed_letterArguments]⟩
  rw [expand_respects letterFile _ _ _ hagrees] at h
  exact h

end Expr

end Scaffold
