import Scaffold.Proofs.Expr.Reading

namespace Scaffold.Expr

structure Closed (fit : String → Prop) (good : Expr → Prop) : Prop where
  absent : good .absent
  var {name : String} : fit name → good (.var name)
  lit (text : String) : good (.lit text)
  append {a b : Expr} : good a → good b → good (a.append b)
  equals {left right : Expr} : good left → good right → good (.equals left right)
  cond {test success failure : Expr} : good test → good success → good failure →
    good (.cond test success failure)
  orElse {first fallback : Expr} : good first → good fallback → good (.orElse first fallback)
  call {function : String} {file : Expr} : fit function → good file →
    good (OpenCall.close ⟨function, file, .nil, []⟩)
  set {opened : OpenCall} {name : String} {value : Expr} : good opened.close → fit name →
    good value → good (opened.set name value).close
  unset {opened : OpenCall} {name : String} : good opened.close → fit name →
    good (opened.unset name).close

def Waiting.Has (good : Expr → Prop) : Waiting → Prop
  | .failure test success => good test ∧ good success
  | .fallback first => good first

structure Level.Has (good : Expr → Prop) (l : Level) : Prop where
  waiting : ∀ w ∈ l.waiting, w.Has good
  lefts : ∀ e ∈ l.lefts, good e
  terms : good l.terms

def Holder.Has (fit : String → Prop) (good : Expr → Prop) : Holder → Prop
  | .group outer => outer.Has good
  | .success waiting test => (∀ w ∈ waiting, w.Has good) ∧ good test
  | .file outer function => outer.Has good ∧ fit function
  | .value outer opened name => outer.Has good ∧ good opened.close ∧ fit name

def Focus.Has (fit : String → Prop) (good : Expr → Prop) : Focus → Prop
  | .terms level => level.Has good
  | .function outer => outer.Has good
  | .parenthesis outer name => outer.Has good ∧ fit name
  | .argument outer opened => outer.Has good ∧ good opened.close
  | .undefined outer opened => outer.Has good ∧ good opened.close
  | .named outer opened name => outer.Has good ∧ good opened.close ∧ fit name
  | .argumentEnd outer opened => outer.Has good ∧ good opened.close

structure Parser.Has (fit : String → Prop) (good : Expr → Prop) (p : Parser) : Prop where
  focus : p.focus.Has fit good
  holders : ∀ h ∈ p.holders, h.Has fit good

namespace Closed

variable {fit : String → Prop} {good : Expr → Prop} {l : Level} {e : Expr} {opened : OpenCall}
  {hs : List Holder} {p q : Parser} {t : Token}

section

variable (h : Closed fit good)

include h

lemma close {w : Waiting} (hw : w.Has good) (he : good e) : good (w.close e) := by
  cases w with
  | failure test success => exact h.cond hw.1 hw.2 he
  | fallback first => exact h.orElse hw he

lemma start {ws : List Waiting} (hws : ∀ w ∈ ws, w.Has good) : (Level.start ws).Has good :=
  ⟨hws, by simp [Level.start], h.absent⟩

lemma start_nil : (Level.start []).Has good :=
  h.start (by simp)

lemma add (hl : l.Has good) (he : good e) : (l.add e).Has good :=
  ⟨hl.waiting, hl.lefts, h.append hl.terms he⟩

lemma compare (hl : l.Has good) : l.compare.Has good :=
  ⟨hl.waiting, List.forall_mem_cons.mpr ⟨hl.terms, hl.lefts⟩, h.absent⟩

lemma comparison (hl : l.Has good) : good l.comparison :=
  List.foldlRecOn l.lefts _ hl.terms fun _ he left hleft => h.equals (hl.lefts left hleft) he

lemma value (hl : l.Has good) : good l.value :=
  List.foldlRecOn l.waiting _ (h.comparison hl) fun _ he w hw => h.close (hl.waiting w hw) he

lemma acceptInArguments {outer : Level} (ho : outer.Has good) (hc : good opened.close)
    (hh : ∀ k ∈ hs, k.Has fit good) (ha : Parser.acceptInArguments outer opened hs t = some q) :
    q.Has fit good := by
  cases t with
  | comma =>
    cases ha
    exact ⟨⟨ho, hc⟩, hh⟩
  | closeParen =>
    cases ha
    exact ⟨h.add ho hc, hh⟩
  | _ => cases ha

lemma acceptAtEnd (hl : l.Has good) (hh : ∀ k ∈ hs, k.Has fit good)
    (ha : Parser.acceptAtEnd l hs t = some q) : q.Has fit good := by
  have hv := h.value hl
  cases hs with
  | nil => cases ha
  | cons k hs =>
    obtain ⟨hk, hrest⟩ := List.forall_mem_cons.mp hh
    cases k with
    | group outer =>
      simp only [Parser.acceptAtEnd] at ha
      split at ha <;> cases ha
      exact ⟨h.add hk hv, hrest⟩
    | success waiting test =>
      simp only [Parser.acceptAtEnd] at ha
      split at ha <;> cases ha
      exact ⟨h.start (List.forall_mem_cons.mpr ⟨⟨hk.2, hv⟩, hk.1⟩), hrest⟩
    | file outer function => exact h.acceptInArguments hk.1 (h.call hk.2 hv) hrest ha
    | value outer opened name =>
      exact h.acceptInArguments hk.1 (h.set hk.2.1 hk.2.2 hv) hrest ha

lemma accept (hp : p.Has fit good) (ht : ∀ name, t = .ident name → fit name)
    (ha : p.accept t = some q) : q.Has fit good := by
  obtain ⟨focus, hs⟩ := p
  obtain ⟨hf, hh⟩ := hp
  cases focus with
  | terms l =>
    have hc := h.comparison hf
    cases t with
    | closeBracket | colon | closeParen | comma | assign | minus => exact h.acceptAtEnd hf hh ha
    | openParen =>
      cases ha
      exact ⟨h.start_nil, List.forall_mem_cons.mpr ⟨hf, hh⟩⟩
    | question =>
      cases ha
      exact ⟨h.start_nil, List.forall_mem_cons.mpr ⟨⟨hf.waiting, hc⟩, hh⟩⟩
    | equals =>
      cases ha
      exact ⟨h.compare hf, hh⟩
    | nullCheck =>
      cases ha
      exact ⟨h.start (List.forall_mem_cons.mpr ⟨hc, hf.waiting⟩), hh⟩
    | ident name =>
      cases ha
      exact ⟨h.add hf (h.var (ht name rfl)), hh⟩
    | literal text =>
      cases ha
      exact ⟨h.add hf (h.lit text), hh⟩
    | pound =>
      cases ha
      exact ⟨hf, hh⟩
  | function outer =>
    cases t <;> cases ha
    exact ⟨⟨hf, ht _ rfl⟩, hh⟩
  | parenthesis outer function =>
    simp only [Parser.accept] at ha
    split at ha <;> cases ha
    exact ⟨h.start_nil, List.forall_mem_cons.mpr ⟨hf, hh⟩⟩
  | argument outer opened =>
    cases t with
    | minus =>
      cases ha
      exact ⟨hf, hh⟩
    | ident name =>
      cases ha
      exact ⟨⟨hf.1, hf.2, ht name rfl⟩, hh⟩
    | _ => cases ha
  | undefined outer opened =>
    cases t <;> cases ha
    exact ⟨⟨hf.1, h.unset hf.2 (ht _ rfl)⟩, hh⟩
  | named outer opened name =>
    simp only [Parser.accept] at ha
    split at ha
    · cases ha
      exact ⟨h.start_nil, List.forall_mem_cons.mpr ⟨hf, hh⟩⟩
    · exact h.acceptInArguments hf.1 (h.set hf.2.1 hf.2.2 h.absent) hh ha
  | argumentEnd outer opened => exact h.acceptInArguments hf.1 hf.2 hh ha

lemma feed {ts : List Token} (hp : p.Has fit good) (ht : ∀ name, .ident name ∈ ts → fit name)
    (hf : p.feed ts = some q) : q.Has fit good := by
  induction ts generalizing p with
  | nil =>
    cases hf
    exact hp
  | cons t ts ih =>
    obtain ⟨p', ha, hf⟩ := Option.bind_eq_some_iff.mp hf
    have hp' := h.accept hp (fun name he => ht name (he ▸ List.mem_cons_self)) ha
    exact ih hp' (fun name hn => ht name (List.mem_cons_of_mem t hn)) hf

lemma result (hp : p.Has fit good) (hr : p.result? = some e) : good e := by
  obtain ⟨focus, hs⟩ := p
  cases focus <;> cases hs <;> cases hr
  exact h.value hp.focus

lemma of_tokens {ts : List Token} (ht : ∀ name, .ident name ∈ ts → fit name)
    (hf : Parser.start.feed ts = some q) (hr : q.result? = some e) : good e := by
  have hstart : Parser.start.Has fit good := ⟨h.start_nil, by simp [Parser.start]⟩
  exact h.result (h.feed hstart ht hf) hr

end

end Closed

end Scaffold.Expr
