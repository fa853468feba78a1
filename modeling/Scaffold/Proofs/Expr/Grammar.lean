import Scaffold.Proofs.Expr.Reading

/-! The grammar of expressions, and that the parser reads just what can be derived in it. -/

namespace Scaffold.Expr

inductive Symbol
  | expr
  | concat
  | term
  | call
  | arguments
  | argument

/-- `expr := concat ('?' expr ':' expr | '??' expr)?`, where a `concat` is any number of terms,
`term := '(' expr ')' | ident | literal | '#' call | '==' concat`,
`call := ident '(' expr (',' argument)* ')'` and `argument := '-' ident | ident ('=' expr)?`. -/
inductive Derives : Symbol → List Token → Prop
  | plain {w} (h : Derives .concat w) : Derives .expr w
  | cond {t s f} (ht : Derives .concat t) (hs : Derives .expr s) (hf : Derives .expr f) :
      Derives .expr (t ++ .question :: (s ++ .colon :: f))
  | orElse {p f} (hp : Derives .concat p) (hf : Derives .expr f) :
      Derives .expr (p ++ .nullCheck :: f)
  | nothing : Derives .concat []
  | terms {t w} (ht : Derives .term t) (hw : Derives .concat w) : Derives .concat (t ++ w)
  | group {w} (h : Derives .expr w) : Derives .term (.openParen :: (w ++ [.closeParen]))
  | ident (name : String) : Derives .term [.ident name]
  | literal (text : String) : Derives .term [.literal text]
  | called {c} (h : Derives .call c) : Derives .term (.pound :: c)
  | compared {w} (h : Derives .concat w) : Derives .term (.equals :: w)
  | call (function : String) {e a} (he : Derives .expr e) (ha : Derives .arguments a) :
      Derives .call (.ident function :: .openParen :: (e ++ (a ++ [.closeParen])))
  | noArguments : Derives .arguments []
  | moreArguments {u a} (hu : Derives .argument u) (ha : Derives .arguments a) :
      Derives .arguments (.comma :: (u ++ a))
  | undefine (name : String) : Derives .argument [.minus, .ident name]
  | clear (name : String) : Derives .argument [.ident name]
  | define (name : String) {e} (he : Derives .expr e) :
      Derives .argument (.ident name :: .assign :: e)

section

variable {c e t u v w : List Token}

lemma Derives.concat_append (hv : Derives .concat v) (hw : Derives .concat w) :
    Derives .concat (v ++ w) := by
  generalize hs : Symbol.concat = s at hv
  induction hv with
  | nothing => exact hw
  | terms ht _ _ ih =>
    rw [List.append_assoc]
    exact .terms ht (ih hs)
  | _ => cases hs

lemma Derives.concat_term (hv : Derives .concat v) (ht : Derives .term t) :
    Derives .concat (v ++ t) := by
  apply hv.concat_append
  simpa using Derives.terms ht .nothing

lemma Derives.arguments_append (hv : Derives .arguments v) (hw : Derives .arguments w) :
    Derives .arguments (v ++ w) := by
  generalize hs : Symbol.arguments = s at hv
  induction hv with
  | noArguments => exact hw
  | moreArguments hu _ _ ih =>
    rw [List.cons_append, List.append_assoc]
    exact .moreArguments hu (ih hs)
  | _ => cases hs

def Opens (w : List Token) : Prop :=
  ∃ u c, w = u ++ c ∧ Derives .concat c ∧ ∀ v, Derives .expr v → Derives .expr (u ++ v)

lemma opens_nil : Opens [] :=
  ⟨[], [], rfl, .nothing, fun _ hv => hv⟩

lemma Opens.derives (h : Opens w) : Derives .expr w := by
  obtain ⟨u, c, rfl, hc, hu⟩ := h
  exact hu c (.plain hc)

lemma Opens.term (h : Opens w) (ht : Derives .term t) : Opens (w ++ t) := by
  obtain ⟨u, c, rfl, hc, hu⟩ := h
  exact ⟨u, c ++ t, List.append_assoc u c t, hc.concat_term ht, hu⟩

lemma Opens.failure (h : Opens w) (he : Derives .expr e) :
    Opens (w ++ .question :: (e ++ [.colon])) := by
  obtain ⟨u, c, rfl, hc, hu⟩ := h
  refine ⟨u ++ c ++ .question :: (e ++ [.colon]), [], by simp, .nothing, fun v hv => ?_⟩
  simpa using hu _ (.cond hc he hv)

lemma Opens.fallback (h : Opens w) : Opens (w ++ [.nullCheck]) := by
  obtain ⟨u, c, rfl, hc, hu⟩ := h
  refine ⟨u ++ c ++ [.nullCheck], [], by simp, .nothing, fun v hv => ?_⟩
  simpa using hu _ (.orElse hc hv)

def CallOpens (w : List Token) : Prop :=
  ∃ function e a, w = .ident function :: .openParen :: (e ++ a) ∧ Derives .expr e ∧
    Derives .arguments a

lemma callOpens_file (function : String) (he : Derives .expr e) :
    CallOpens (.ident function :: .openParen :: e) :=
  ⟨function, e, [], by simp, he, .noArguments⟩

lemma CallOpens.argument (h : CallOpens c) (hu : Derives .argument u) :
    CallOpens (c ++ .comma :: u) := by
  obtain ⟨function, e, a, rfl, he, ha⟩ := h
  refine ⟨function, e, a ++ .comma :: u, by simp, he, ha.arguments_append ?_⟩
  simpa using Derives.moreArguments hu .noArguments

lemma CallOpens.close (h : CallOpens c) : Derives .term (.pound :: (c ++ [.closeParen])) := by
  obtain ⟨function, e, a, rfl, he, ha⟩ := h
  simpa using Derives.called (.call function he ha)

end

inductive HoldersRead : List Holder → List Token → Prop
  | nil : HoldersRead [] []
  | group {outer hs h w} (hh : HoldersRead hs h) (hw : Opens w) :
      HoldersRead (.group outer :: hs) (h ++ (w ++ [.openParen]))
  | success {waiting test hs h w} (hh : HoldersRead hs h) (hw : Opens w) :
      HoldersRead (.success waiting test :: hs) (h ++ (w ++ [.question]))
  | file {outer function hs h w} (hh : HoldersRead hs h) (hw : Opens w) :
      HoldersRead (.file outer function :: hs)
        (h ++ (w ++ [.pound, .ident function, .openParen]))
  | value {outer opened name hs h w c} (hh : HoldersRead hs h) (hw : Opens w)
      (hc : CallOpens c) :
      HoldersRead (.value outer opened name :: hs)
        (h ++ (w ++ .pound :: (c ++ [.comma, .ident name, .assign])))

inductive FocusRead : Focus → List Token → Prop
  | terms {level w} (hw : Opens w) : FocusRead (.terms level) w
  | function {outer w} (hw : Opens w) : FocusRead (.function outer) (w ++ [.pound])
  | parenthesis {outer function w} (hw : Opens w) :
      FocusRead (.parenthesis outer function) (w ++ [.pound, .ident function])
  | argument {outer opened w c} (hw : Opens w) (hc : CallOpens c) :
      FocusRead (.argument outer opened) (w ++ .pound :: (c ++ [.comma]))
  | undefined {outer opened w c} (hw : Opens w) (hc : CallOpens c) :
      FocusRead (.undefined outer opened) (w ++ .pound :: (c ++ [.comma, .minus]))
  | named {outer opened name w c} (hw : Opens w) (hc : CallOpens c) :
      FocusRead (.named outer opened name) (w ++ .pound :: (c ++ [.comma, .ident name]))
  | argumentEnd {outer opened w c} (hw : Opens w) (hc : CallOpens c) :
      FocusRead (.argumentEnd outer opened) (w ++ .pound :: c)

namespace Parser

def HasRead (p : Parser) (ts : List Token) : Prop :=
  ∃ h w, ts = h ++ w ∧ HoldersRead p.holders h ∧ FocusRead p.focus w

section

variable {p q : Parser} {level outer : Level} {opened : OpenCall} {hs : List Holder} {t : Token}
  {h w c ts : List Token}

lemma acceptInArguments_read (hh : HoldersRead hs h) (hw : Opens w) (hc : CallOpens c)
    (ha : acceptInArguments outer opened hs t = some q) :
    q.HasRead (h ++ (w ++ .pound :: (c ++ [t]))) := by
  cases t <;> cases ha
  · exact ⟨h, _, rfl, hh, .terms (hw.term hc.close)⟩
  · exact ⟨h, _, rfl, hh, .argument hw hc⟩

lemma acceptAtEnd_read (hh : HoldersRead hs h) (hw : Opens w)
    (ha : acceptAtEnd level hs t = some q) : q.HasRead (h ++ (w ++ [t])) := by
  have he := hw.derives
  cases hh with
  | nil => cases ha
  | group hh hv =>
    rename_i outer hs h v
    simp only [acceptAtEnd] at ha
    split at ha <;> cases ha
    subst t
    exact ⟨h, v ++ .openParen :: (w ++ [.closeParen]), by simp, hh, .terms (hv.term (.group he))⟩
  | success hh hv =>
    rename_i waiting test hs h v
    simp only [acceptAtEnd] at ha
    split at ha <;> cases ha
    subst t
    exact ⟨h, v ++ .question :: (w ++ [.colon]), by simp, hh, .terms (hv.failure he)⟩
  | file hh hv =>
    rename_i outer function hs h v
    simpa using acceptInArguments_read hh hv (callOpens_file function he) ha
  | value hh hv hc =>
    rename_i outer opened name hs h v c
    simpa using acceptInArguments_read hh hv (hc.argument (.define name he)) ha

lemma accept_read (hp : p.HasRead ts) (ha : p.accept t = some q) : q.HasRead (ts ++ [t]) := by
  obtain ⟨focus, hs⟩ := p
  obtain ⟨h, w, rfl, hh, hf⟩ := hp
  rw [List.append_assoc]
  cases hf with
  | terms hw =>
    rename_i level
    cases t with
    | closeBracket | colon | closeParen | comma | assign | minus =>
      exact acceptAtEnd_read hh hw ha
    | openParen =>
      cases ha
      exact ⟨_, [], (List.append_nil _).symm, .group hh hw, .terms opens_nil⟩
    | question =>
      cases ha
      exact ⟨_, [], (List.append_nil _).symm, .success hh hw, .terms opens_nil⟩
    | ident name =>
      cases ha
      exact ⟨h, _, rfl, hh, .terms (hw.term (.ident name))⟩
    | literal text =>
      cases ha
      exact ⟨h, _, rfl, hh, .terms (hw.term (.literal text))⟩
    | equals =>
      cases ha
      exact ⟨h, _, rfl, hh, .terms (hw.term (.compared .nothing))⟩
    | nullCheck =>
      cases ha
      exact ⟨h, _, rfl, hh, .terms hw.fallback⟩
    | pound =>
      cases ha
      exact ⟨h, _, rfl, hh, .function hw⟩
  | function hw =>
    rename_i outer w
    cases t <;> cases ha
    exact ⟨h, _, by simp, hh, .parenthesis hw⟩
  | parenthesis hw =>
    rename_i outer function w
    simp only [accept] at ha
    split at ha <;> cases ha
    subst t
    exact ⟨_, [], by simp, .file hh hw, .terms opens_nil⟩
  | argument hw hc =>
    cases t <;> cases ha
    · exact ⟨h, _, by simp, hh, .named hw hc⟩
    · exact ⟨h, _, by simp, hh, .undefined hw hc⟩
  | undefined hw hc =>
    cases t <;> cases ha
    rename_i name
    exact ⟨h, _, by simp, hh, .argumentEnd hw (hc.argument (.undefine name))⟩
  | named hw hc =>
    rename_i outer opened name w c
    simp only [accept] at ha
    split at ha
    · cases ha
      subst t
      exact ⟨_, [], by simp, .value hh hw hc, .terms opens_nil⟩
    · simpa using acceptInArguments_read hh hw (hc.argument (.clear name)) ha
  | argumentEnd hw hc => simpa using acceptInArguments_read hh hw hc ha

lemma feed_read {us : List Token} (hp : p.HasRead ts) (hf : p.feed us = some q) :
    q.HasRead (ts ++ us) := by
  induction us generalizing p ts with
  | nil =>
    cases hf
    simpa using hp
  | cons t us ih =>
    obtain ⟨p', ha, hf⟩ := Option.bind_eq_some_iff.mp hf
    simpa using ih (accept_read hp ha) hf

lemma start_hasRead : start.HasRead [] :=
  ⟨[], [], rfl, .nil, .terms opens_nil⟩

lemma derives_of_result {e : Expr} (hp : p.HasRead ts) (hr : p.result? = some e) :
    Derives .expr ts := by
  obtain ⟨focus, hs⟩ := p
  obtain ⟨h, w, rfl, hh, hf⟩ := hp
  cases hh with
  | nil =>
    cases hf with
    | terms hw => exact hw.derives
    | _ => cases hr
  | _ => cases focus <;> cases hr

end

def InArguments (p : Parser) (outer : Level) (hs : List Holder) : Prop :=
  ∃ opened, ∀ t, t = .comma ∨ t = .closeParen →
    p.accept t = acceptInArguments outer opened hs t

def Takes : Symbol → List Token → Prop
  | .expr, w | .concat, w | .term, w => ∀ level hs, ∃ level',
      feed ⟨.terms level, hs⟩ w = some ⟨.terms level', hs⟩
  | .call, w => ∀ outer hs, ∃ level, feed ⟨.function outer, hs⟩ w = some ⟨.terms level, hs⟩
  | .arguments, w => ∀ p outer hs, InArguments p outer hs →
      ∃ q, p.feed w = some q ∧ InArguments q outer hs
  | .argument, w => ∀ outer opened hs, ∃ q,
      feed ⟨.argument outer opened, hs⟩ w = some q ∧ InArguments q outer hs

lemma takes_of_derives {s : Symbol} {w : List Token} (h : Derives s w) : Takes s w := by
  induction h with
  | plain _ ih => exact ih
  | cond _ _ _ iht ihs ihf =>
    intro level hs
    obtain ⟨l₁, h₁⟩ := iht level hs
    obtain ⟨l₂, h₂⟩ := ihs (.start []) (.success l₁.waiting l₁.comparison :: hs)
    obtain ⟨l₃, h₃⟩ := ihf (.start (.failure l₁.comparison l₂.value :: l₁.waiting)) hs
    refine ⟨l₃, ?_⟩
    rw [feed_append, h₁, Option.bind_some, feed_cons]
    change feed ⟨.terms (.start []), _⟩ _ = _
    rw [feed_append, h₂, Option.bind_some, feed_cons]
    exact h₃
  | orElse _ _ ihp ihf =>
    intro level hs
    obtain ⟨l₁, h₁⟩ := ihp level hs
    obtain ⟨l₂, h₂⟩ := ihf (.start (.fallback l₁.comparison :: l₁.waiting)) hs
    refine ⟨l₂, ?_⟩
    rw [feed_append, h₁, Option.bind_some, feed_cons]
    exact h₂
  | nothing => exact fun level _ => ⟨level, rfl⟩
  | terms _ _ iht ihw =>
    intro level hs
    obtain ⟨l₁, h₁⟩ := iht level hs
    obtain ⟨l₂, h₂⟩ := ihw l₁ hs
    exact ⟨l₂, by rw [feed_append, h₁, Option.bind_some, h₂]⟩
  | group _ ih =>
    intro level hs
    obtain ⟨l₁, h₁⟩ := ih (.start []) (.group level :: hs)
    refine ⟨level.add l₁.value, ?_⟩
    rw [feed_cons]
    change feed ⟨.terms (.start []), _⟩ _ = _
    rw [feed_append, h₁]
    rfl
  | ident name => exact fun level _ => ⟨level.add (.var name), rfl⟩
  | literal text => exact fun level _ => ⟨level.add (.lit text), rfl⟩
  | called _ ih => exact ih
  | compared _ ih => exact fun level hs => ih level.compare hs
  | call function _ _ ihe iha =>
    intro outer hs
    obtain ⟨l₁, h₁⟩ := ihe (.start []) (.file outer function :: hs)
    have hin : InArguments ⟨.terms l₁, .file outer function :: hs⟩ outer hs :=
      ⟨⟨function, l₁.value, .nil, []⟩, by rintro t (rfl | rfl) <;> rfl⟩
    obtain ⟨q, hq, opened, hclose⟩ := iha _ outer hs hin
    refine ⟨outer.add opened.close, ?_⟩
    rw [feed_cons]
    change feed ⟨.terms (.start []), _⟩ _ = _
    rw [feed_append, h₁, Option.bind_some, feed_append, hq, Option.bind_some, feed_cons,
      hclose .closeParen (.inr rfl)]
    rfl
  | noArguments => exact fun p _ _ hin => ⟨p, rfl, hin⟩
  | moreArguments _ _ ihu iha =>
    rintro p outer hs ⟨opened, hcomma⟩
    obtain ⟨q₁, h₁, hin⟩ := ihu outer opened hs
    obtain ⟨q₂, h₂, hin'⟩ := iha q₁ outer hs hin
    refine ⟨q₂, ?_, hin'⟩
    rw [feed_cons, hcomma .comma (.inl rfl)]
    change feed ⟨.argument outer opened, hs⟩ _ = _
    rw [feed_append, h₁, Option.bind_some, h₂]
  | undefine name =>
    intro outer opened hs
    exact ⟨⟨.argumentEnd outer (opened.unset name), hs⟩, rfl, opened.unset name, fun _ _ => rfl⟩
  | clear name =>
    intro outer opened hs
    refine ⟨⟨.named outer opened name, hs⟩, rfl, opened.set name .absent, ?_⟩
    rintro t (rfl | rfl) <;> rfl
  | define name _ ih =>
    intro outer opened hs
    obtain ⟨l₁, h₁⟩ := ih (.start []) (.value outer opened name :: hs)
    refine ⟨_, h₁, opened.set name l₁.value, ?_⟩
    rintro t (rfl | rfl) <;> rfl

lemma derives_iff_feed (w : List Token) :
    Derives .expr w ↔ ∃ p, start.feed w = some p ∧ p.result?.isSome := by
  constructor
  · intro h
    obtain ⟨level, hf⟩ := takes_of_derives h (.start []) []
    exact ⟨_, hf, rfl⟩
  · rintro ⟨p, hf, hr⟩
    obtain ⟨e, he⟩ := Option.isSome_iff_exists.mp hr
    exact derives_of_result (feed_read start_hasRead hf) he

lemma closeBracket_not_mem {p q : Parser} {ts : List Token} (h : p.feed ts = some q) :
    .closeBracket ∉ ts := by
  induction ts generalizing p with
  | nil => exact List.not_mem_nil
  | cons t ts ih =>
    obtain ⟨p', ha, hf⟩ := Option.bind_eq_some_iff.mp h
    rintro (_ | ⟨_, hm⟩)
    · rw [accept_closeBracket] at ha
      cases ha
    · exact ih hf hm

lemma run_text_eq_ok_iff (p : Parser) (ts : List Token) (e : Expr) :
    (p.run .text ts).1 = .ok e ↔ ∃ q, p.feed ts = some q ∧ q.result? = some e := by
  induction ts generalizing p with
  | nil => cases hr : p.result? <;> simp [run, finish, hr]
  | cons t ts ih =>
    cases ha : p.accept t with
    | some p' => simp [run, (step_eq_more_iff .text p p' t).mpr ha, feed_cons, ha, ih]
    | none => simp [run, step, ha, feed_cons]

def ClosedAs (p : Parser) (ts : List Token) (e : Expr) : Prop :=
  ∃ us vs q, ts = us ++ .closeBracket :: vs ∧ p.feed us = some q ∧ q.result? = some e

lemma closedAs_cons (p : Parser) (t : Token) (ts : List Token) (e : Expr) :
    p.ClosedAs (t :: ts) e ↔ t = .closeBracket ∧ p.result? = some e ∨
      ∃ p', p.accept t = some p' ∧ p'.ClosedAs ts e := by
  constructor
  · rintro ⟨us, vs, q, hts, hf, hr⟩
    cases us with
    | nil =>
      obtain ⟨rfl, -⟩ := List.cons.inj hts
      cases hf
      exact .inl ⟨rfl, hr⟩
    | cons u us =>
      obtain ⟨rfl, rfl⟩ := List.cons.inj hts
      obtain ⟨p', ha, hf⟩ := Option.bind_eq_some_iff.mp hf
      exact .inr ⟨p', ha, us, vs, q, rfl, hf, hr⟩
  · rintro (⟨rfl, hr⟩ | ⟨p', ha, us, vs, q, rfl, hf, hr⟩)
    · exact ⟨[], ts, p, rfl, rfl, hr⟩
    · exact ⟨t :: us, vs, q, rfl, by rw [feed_cons, ha, Option.bind_some, hf], hr⟩

lemma run_brace_eq_ok_iff (p : Parser) (ts : List Token) (e : Expr) :
    (p.run .brace ts).1 = .ok e ↔ p.ClosedAs ts e := by
  induction ts generalizing p with
  | nil => simp [run, finish, ClosedAs]
  | cons t ts ih =>
    rw [closedAs_cons]
    cases hs : p.step .brace t with
    | more p' =>
      have ha := (step_eq_more_iff .brace p p' t).mp hs
      have ht : t ≠ .closeBracket := by
        rintro rfl
        simp [accept_closeBracket] at ha
      simp [run, hs, ih, ha, ht]
    | closed e' =>
      obtain ⟨-, rfl, hr⟩ := step_closed hs
      simp [run, hs, hr, accept_closeBracket]
    | refused x =>
      have ha : p.accept t = none := by
        cases ha : p.accept t with
        | none => rfl
        | some p' => simp [(step_eq_more_iff .brace p p' t).mpr ha] at hs
      simp only [run, hs, ha, reduceCtorEq, false_and, exists_false, or_false, false_iff]
      rintro ⟨rfl, hr⟩
      simp [step, accept_closeBracket, hr] at hs

end Parser

theorem parseTokens_isOk_iff_derives (ts : List Token) :
    ((∃ e, parseTokens .text ts = .ok e) ↔ Derives .expr ts) ∧
    ((∃ e, parseTokens .brace ts = .ok e) ↔ ∃ us vs, ts = us ++ .closeBracket :: vs ∧
      .closeBracket ∉ us ∧ Derives .expr us) ∧
    ∀ ending, (∃ x, parseTokens ending ts = .error x) ↔
      ¬ ∃ e, parseTokens ending ts = .ok e := by
  refine ⟨?_, ?_, fun ending => ?_⟩
  · simp only [parseTokens, Parser.run_text_eq_ok_iff, Parser.derives_iff_feed,
      Option.isSome_iff_exists]
    exact ⟨fun ⟨e, p, hf, hr⟩ => ⟨p, hf, e, hr⟩, fun ⟨p, hf, e, hr⟩ => ⟨e, p, hf, hr⟩⟩
  · simp only [parseTokens, Parser.run_brace_eq_ok_iff, Parser.ClosedAs, Parser.derives_iff_feed,
      Option.isSome_iff_exists]
    constructor
    · rintro ⟨e, us, vs, p, hts, hf, hr⟩
      exact ⟨us, vs, hts, Parser.closeBracket_not_mem hf, p, hf, e, hr⟩
    · rintro ⟨us, vs, hts, -, p, hf, e, hr⟩
      exact ⟨e, us, vs, p, hts, hf, hr⟩
  · cases parseTokens ending ts <;> simp

end Scaffold.Expr
