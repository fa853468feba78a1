import Mathlib.Tactic.Common
import Scaffold.Expr.Reader

namespace Scaffold.Expr

namespace Parser

def feed : Parser → List Token → Option Parser
  | p, [] => some p
  | p, t :: ts => (p.accept t).bind fun q => feed q ts

@[simp] lemma feed_nil (p : Parser) : p.feed [] = some p := rfl

lemma feed_cons (p : Parser) (t : Token) (ts : List Token) :
    p.feed (t :: ts) = (p.accept t).bind fun q => q.feed ts := rfl

lemma feed_append (p : Parser) (ts us : List Token) :
    p.feed (ts ++ us) = (p.feed ts).bind fun q => q.feed us := by
  induction ts generalizing p with
  | nil => rfl
  | cons t ts ih =>
    simp only [List.cons_append, feed_cons]
    cases p.accept t with
    | none => rfl
    | some q => exact ih q

lemma accept_closeBracket (p : Parser) : p.accept .closeBracket = none := by
  obtain ⟨focus, holders⟩ := p
  cases focus with
  | terms level =>
    cases holders with
    | nil => rfl
    | cons h hs => cases h <;> simp [accept, acceptAtEnd, acceptInArguments]
  | _ => simp [accept, acceptInArguments]

lemma step_eq_more_iff (ending : Ending) (p q : Parser) (t : Token) :
    p.step ending t = .more q ↔ p.accept t = some q := by
  cases ha : p.accept t with
  | some p' => simp [step, ha]
  | none =>
    simp only [step, ha, reduceCtorEq, iff_false]
    split <;> simp

lemma step_closed {ending : Ending} {p : Parser} {t : Token} {e : Expr}
    (h : p.step ending t = .closed e) :
    ending = .brace ∧ t = .closeBracket ∧ p.result? = some e := by
  unfold step at h
  split at h
  · cases h
  · split at h
    · cases h
      exact ⟨rfl, rfl, ‹_›⟩
    · cases h

end Parser

lemma Lexer.finish_closeBracket {l : Lexer} {t : Option Token} (h : l.finish = .ok t) :
    .closeBracket ∉ t.toList := by
  cases l <;> cases h <;> simp [nameToken]

namespace Reader

lemma takeTokens_eq_more_iff (ending : Ending) (p q : Parser) (ts : List Token) :
    takeTokens ending p ts = .more q ↔ p.feed ts = some q := by
  induction ts generalizing p with
  | nil => simp [takeTokens]
  | cons t ts ih =>
    have hm := fun p' => Parser.step_eq_more_iff ending p p' t
    cases ha : p.accept t with
    | some p' => simpa [takeTokens, (hm p').mpr ha, Parser.feed_cons, ha] using ih p'
    | none =>
      simp only [Parser.feed_cons, ha, Option.bind_none, reduceCtorEq, iff_false]
      intro h
      simp only [ha, reduceCtorEq, iff_false] at hm
      unfold takeTokens at h
      split at h
      · exact hm _ ‹_›
      · exact hm q h

lemma takeTokens_closed {ending : Ending} {p : Parser} {ts : List Token} {e : Expr}
    (h : takeTokens ending p ts = .closed e) :
    ending = .brace ∧ ∃ us vs q, ts = us ++ .closeBracket :: vs ∧ p.feed us = some q ∧
      q.result? = some e := by
  induction ts generalizing p with
  | nil => cases h
  | cons t ts ih =>
    cases hs : p.step ending t with
    | more p' =>
      simp only [takeTokens, hs] at h
      obtain ⟨he, us, vs, q, rfl, hf, hr⟩ := ih h
      have ha := (Parser.step_eq_more_iff ending p p' t).mp hs
      exact ⟨he, t :: us, vs, q, rfl, by simpa [Parser.feed_cons, ha] using hf, hr⟩
    | closed e' =>
      simp only [takeTokens, hs] at h
      cases h
      obtain ⟨he, rfl, hr⟩ := Parser.step_closed hs
      exact ⟨he, [], ts, p, rfl, rfl, hr⟩
    | refused x =>
      simp only [takeTokens, hs] at h
      cases h

def next? (r : Reader) (c : Char) : Option Reader :=
  match (r.lexer.step c).next with
  | .ok l => (r.parser.feed (r.lexer.step c).tokens).map fun p => ⟨l, p⟩
  | .error _ => none

lemma feed_eq_more_iff (ending : Ending) (r q : Reader) (c : Char) :
    r.feed ending c = .more q ↔ r.next? c = some q := by
  simp only [feed, next?]
  cases ht : takeTokens ending r.parser (r.lexer.step c).tokens with
  | more p =>
    have hf := (takeTokens_eq_more_iff ending _ _ _).mp ht
    cases (r.lexer.step c).next <;> simp [hf]
  | closed e | refused e =>
    have hf : r.parser.feed (r.lexer.step c).tokens = none := by
      apply Option.eq_none_iff_forall_ne_some.mpr
      intro p hp
      rw [(takeTokens_eq_more_iff ending _ _ _).mpr hp] at ht
      cases ht
    cases (r.lexer.step c).next <;> simp [hf]

lemma feed_eq_closed_iff (ending : Ending) (r : Reader) (c : Char) (e : Expr) :
    r.feed ending c = .closed e ↔
      takeTokens ending r.parser (r.lexer.step c).tokens = .closed e := by
  simp only [feed]
  cases takeTokens ending r.parser (r.lexer.step c).tokens with
  | more p => cases (r.lexer.step c).next <;> simp
  | closed e' => simp
  | refused x => simp

def reach : Reader → List Char → Option Reader
  | r, [] => some r
  | r, c :: cs => (r.next? c).bind fun q => reach q cs

@[simp] lemma reach_nil (r : Reader) : r.reach [] = some r := rfl

lemma reach_cons (r : Reader) (c : Char) (cs : List Char) :
    r.reach (c :: cs) = (r.next? c).bind fun q => q.reach cs := rfl

lemma reach_append (r : Reader) (a b : List Char) :
    r.reach (a ++ b) = (r.reach a).bind fun q => q.reach b := by
  induction a generalizing r with
  | nil => rfl
  | cons c cs ih =>
    simp only [List.cons_append, reach_cons]
    cases r.next? c with
    | none => rfl
    | some q => exact ih q

lemma run_append (ending : Ending) (r q : Reader) (a b : List Char) (h : r.reach a = some q) :
    r.run ending (a ++ b) = q.run ending b := by
  induction a generalizing r with
  | nil => cases h; rfl
  | cons c cs ih =>
    obtain ⟨r', hn, hr⟩ := Option.bind_eq_some_iff.mp h
    have hf := (feed_eq_more_iff ending r r' c).mpr hn
    simpa [run, hf] using ih r' hr

lemma run_eq_ok_iff (ending : Ending) (r : Reader) (s rest : List Char) (e : Expr) :
    r.run ending s = (.ok e, rest) ↔ ∃ p q, r.reach p = some q ∧
      ((s = p ∧ rest = [] ∧ q.finish ending = .ok e) ∨
        ∃ c, s = p ++ c :: rest ∧ q.feed ending c = .closed e) := by
  constructor
  · intro h
    induction s generalizing r with
    | nil =>
      simp only [run, Prod.mk.injEq] at h
      exact ⟨[], r, rfl, .inl ⟨rfl, h.2.symm, h.1⟩⟩
    | cons c cs ih =>
      cases hf : r.feed ending c with
      | more r' =>
        simp only [run, hf] at h
        obtain ⟨p, q, hr, hs⟩ := ih r' h
        have hn := (feed_eq_more_iff ending r r' c).mp hf
        refine ⟨c :: p, q, by simpa [reach_cons, hn] using hr, ?_⟩
        rcases hs with ⟨rfl, hrest, hq⟩ | ⟨d, rfl, hq⟩
        · exact .inl ⟨rfl, hrest, hq⟩
        · exact .inr ⟨d, rfl, hq⟩
      | closed e' =>
        simp only [run, hf, Prod.mk.injEq, Except.ok.injEq] at h
        obtain ⟨rfl, rfl⟩ := h
        exact ⟨[], r, rfl, .inr ⟨c, rfl, hf⟩⟩
      | failed f => simp [run, hf] at h
  · rintro ⟨p, q, hr, ⟨rfl, rfl, hq⟩ | ⟨c, rfl, hq⟩⟩
    · have h := run_append ending r q s [] hr
      simpa [run, hq] using h
    · rw [run_append ending r q p _ hr]
      simp [run, hq]

lemma finish_brace (r : Reader) (e : Expr) : r.finish .brace ≠ .ok e := by
  intro h
  unfold finish at h
  cases ht : r.lexer.finish with
  | error f => simp [ht] at h
  | ok t =>
    cases hs : takeTokens .brace r.parser t.toList with
    | more p => simp [ht, hs, Parser.finish, Except.mapError] at h
    | closed e' =>
      obtain ⟨_, us, vs, _, hm, _⟩ := takeTokens_closed hs
      exact Lexer.finish_closeBracket ht (by simp [hm])
    | refused x => simp [ht, hs] at h

lemma finish_text_iff (r : Reader) (e : Expr) :
    r.finish .text = .ok e ↔ ∃ t p, r.lexer.finish = .ok t ∧
      r.parser.feed t.toList = some p ∧ p.result? = some e := by
  unfold finish
  cases ht : r.lexer.finish with
  | error f => simp
  | ok t =>
    cases hs : takeTokens .text r.parser t.toList with
    | more p =>
      have hf := (takeTokens_eq_more_iff .text _ _ _).mp hs
      cases hr : p.result? <;> simp [hs, hf, hr, Parser.finish, Except.mapError]
    | closed e' => exact absurd (takeTokens_closed hs).1 (by decide)
    | refused x =>
      have hf : r.parser.feed t.toList = none := by
        apply Option.eq_none_iff_forall_ne_some.mpr
        intro p hp
        rw [(takeTokens_eq_more_iff .text _ _ _).mpr hp] at hs
        cases hs
      simp [hs, hf]

lemma feed_text_ne_closed (r : Reader) (c : Char) (e : Expr) : r.feed .text c ≠ .closed e := by
  intro h
  exact absurd (takeTokens_closed ((feed_eq_closed_iff .text r c e).mp h)).1 (by decide)

lemma run_text_iff (r : Reader) (s : List Char) (e : Expr) :
    (r.run .text s).1 = .ok e ↔ ∃ q, r.reach s = some q ∧ q.finish .text = .ok e := by
  constructor
  · intro h
    obtain ⟨p, q, hr, ⟨rfl, _, hq⟩ | ⟨c, _, hq⟩⟩ :=
      (run_eq_ok_iff .text r s _ e).mp (Prod.ext h rfl)
    · exact ⟨q, hr, hq⟩
    · exact absurd hq (feed_text_ne_closed q c e)
  · rintro ⟨q, hr, hq⟩
    have h := (run_eq_ok_iff .text r s [] e).mpr ⟨s, q, hr, .inl ⟨rfl, rfl, hq⟩⟩
    rw [h]

lemma run_brace_iff (r : Reader) (s rest : List Char) (e : Expr) :
    r.run .brace s = (.ok e, rest) ↔ ∃ p q c, s = p ++ c :: rest ∧ r.reach p = some q ∧
      q.feed .brace c = .closed e := by
  rw [run_eq_ok_iff]
  constructor
  · rintro ⟨p, q, hr, ⟨_, _, hq⟩ | ⟨c, hs, hq⟩⟩
    · exact absurd hq (finish_brace q e)
    · exact ⟨p, q, c, hs, hr, hq⟩
  · rintro ⟨p, q, c, hs, hr, hq⟩
    exact ⟨p, q, hr, .inr ⟨c, hs, hq⟩⟩

end Reader

end Scaffold.Expr
