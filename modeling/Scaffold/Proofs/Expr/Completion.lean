import Scaffold.Proofs.Expr.Grammar

/-! Whatever the parser has taken can be completed to an expression, so it fails at the first token
that no expression has there. Neither the parser nor the lexer in front of it reads any further. -/

namespace Scaffold.Expr

namespace Parser

def Completes (p : Parser) : Prop :=
  ∃ ts q e, p.feed ts = some q ∧ q.result? = some e

section

variable {p q : Parser} {t : Token}

lemma Completes.of_accept (ha : p.accept t = some q) (h : q.Completes) : p.Completes := by
  obtain ⟨ts, r, e, hf, hr⟩ := h
  exact ⟨t :: ts, r, e, by rw [feed_cons, ha, Option.bind_some, hf], hr⟩

lemma completes_terms (level : Level) (hs : List Holder) : Completes ⟨.terms level, hs⟩ := by
  induction hs generalizing level with
  | nil => exact ⟨[], _, _, rfl, rfl⟩
  | cons h hs ih =>
    cases h with
    | group outer => exact .of_accept (t := .closeParen) rfl (ih _)
    | success waiting test => exact .of_accept (t := .colon) rfl (ih _)
    | file outer function => exact .of_accept (t := .closeParen) rfl (ih _)
    | value outer opened name => exact .of_accept (t := .closeParen) rfl (ih _)

lemma completes_argumentEnd (outer : Level) (opened : OpenCall) (hs : List Holder) :
    Completes ⟨.argumentEnd outer opened, hs⟩ :=
  .of_accept (t := .closeParen) rfl (completes_terms _ hs)

lemma completes_undefined (outer : Level) (opened : OpenCall) (hs : List Holder) :
    Completes ⟨.undefined outer opened, hs⟩ :=
  .of_accept (t := .ident "_") rfl (completes_argumentEnd outer _ hs)

lemma completes_parenthesis (outer : Level) (function : String) (hs : List Holder) :
    Completes ⟨.parenthesis outer function, hs⟩ :=
  .of_accept (t := .openParen) rfl (completes_terms _ _)

lemma completes (p : Parser) : p.Completes := by
  obtain ⟨focus, hs⟩ := p
  cases focus with
  | terms level => exact completes_terms level hs
  | function outer => exact .of_accept (t := .ident "_") rfl (completes_parenthesis outer _ hs)
  | parenthesis outer function => exact completes_parenthesis outer function hs
  | argument outer opened =>
    exact .of_accept (t := .minus) rfl (completes_undefined outer opened hs)
  | undefined outer opened => exact completes_undefined outer opened hs
  | named outer opened name => exact .of_accept (t := .closeParen) rfl (completes_terms _ hs)
  | argumentEnd outer opened => exact completes_argumentEnd outer opened hs

end

end Parser

def Completable (ending : Ending) (ts : List Token) : Prop :=
  ∃ us e, parseTokens ending (ts ++ us) = .ok e

namespace Parser

section

variable {ending : Ending} {p q : Parser} {t : Token} {ts us rest : List Token} {x : Expected}

lemma run_of_feed (h : p.feed ts = some q) (us : List Token) :
    p.run ending (ts ++ us) = q.run ending us := by
  induction ts generalizing p with
  | nil =>
    cases h
    rfl
  | cons t ts ih =>
    obtain ⟨p', ha, hf⟩ := Option.bind_eq_some_iff.mp h
    have hs := (step_eq_more_iff ending p p' t).mpr ha
    simpa only [List.cons_append, run, hs] using ih hf

lemma run_of_refused (h : p.step ending t = .refused x) (ts : List Token) :
    p.run ending (t :: ts) = (.error x, ts) := by
  rw [run, h]

lemma completable_of_feed (ending : Ending) (h : start.feed ts = some q) :
    Completable ending ts := by
  obtain ⟨us, r, e, hf, hr⟩ := q.completes
  have hread : start.feed (ts ++ us) = some r := by rw [feed_append, h, Option.bind_some, hf]
  cases ending with
  | text => exact ⟨us, e, (run_text_eq_ok_iff start _ e).mpr ⟨r, hread, hr⟩⟩
  | brace =>
    refine ⟨us ++ [.closeBracket], e, (run_brace_eq_ok_iff start _ e).mpr ?_⟩
    exact ⟨ts ++ us, [], r, (List.append_assoc _ _ _).symm, hread, hr⟩

lemma not_completable (hf : start.feed ts = some q) (h : q.step ending t = .refused x) :
    ¬ Completable ending (ts ++ [t]) := by
  rintro ⟨us, e, he⟩
  rw [parseTokens, List.append_assoc, run_of_feed hf, List.singleton_append, run_of_refused h] at he
  cases he

lemma run_eq_error (h : p.run ending ts = (.error x, rest)) :
    (∃ us t q, ts = us ++ t :: rest ∧ p.feed us = some q ∧ q.step ending t = .refused x) ∨
      rest = [] ∧ ∃ q, p.feed ts = some q ∧ q.finish ending = .error x := by
  induction ts generalizing p with
  | nil =>
    obtain ⟨hfin, rfl⟩ := Prod.mk.inj h
    exact .inr ⟨rfl, p, rfl, hfin⟩
  | cons t ts ih =>
    cases hs : p.step ending t with
    | closed e =>
      simp only [run, hs] at h
      cases h
    | refused y =>
      obtain ⟨hy, rfl⟩ := Prod.mk.inj ((run_of_refused hs ts).symm.trans h)
      cases hy
      exact .inl ⟨[], t, p, rfl, rfl, hs⟩
    | more p' =>
      simp only [run, hs] at h
      have ha := (step_eq_more_iff ending p p' t).mp hs
      rcases ih h with ⟨us, k, q, rfl, hf, hk⟩ | ⟨hrest, q, hf, hfin⟩
      · exact .inl ⟨t :: us, k, q, rfl, by rw [feed_cons, ha, Option.bind_some, hf], hk⟩
      · exact .inr ⟨hrest, q, by rw [feed_cons, ha, Option.bind_some, hf], hfin⟩

end

end Parser

section

variable {ending : Ending} {x : Expected}

lemma Reader.takeTokens_eq_refused {p : Parser} {ts : List Token}
    (h : takeTokens ending p ts = .refused x) :
    ∃ us t vs q, ts = us ++ t :: vs ∧ p.feed us = some q ∧ q.step ending t = .refused x := by
  induction ts generalizing p with
  | nil => cases h
  | cons t ts ih =>
    cases hs : p.step ending t with
    | closed e =>
      simp only [takeTokens, hs] at h
      cases h
    | refused y =>
      simp only [takeTokens, hs] at h
      cases h
      exact ⟨[], t, ts, p, rfl, rfl, hs⟩
    | more p' =>
      simp only [takeTokens, hs] at h
      obtain ⟨us, k, vs, q, rfl, hf, hk⟩ := ih h
      have ha := (Parser.step_eq_more_iff ending p p' t).mp hs
      exact ⟨t :: us, k, vs, q, rfl, by rw [Parser.feed_cons, ha, Option.bind_some, hf], hk⟩

/-- The parser fails at a token of the lexer, when just this much has been read of the text, or
behind all of them. -/
def Parser.FailsAmong (p : Parser) (ending : Ending) (l : Lexed) (x : Expected)
    (rest : List Char) : Prop :=
  (∃ us t vs q, l.tokens = us ++ (t, rest) :: vs ∧ p.feed (us.map Prod.fst) = some q ∧
      q.step ending t = .refused x) ∨
    rest = [] ∧ l.fault = none ∧ ∃ q, p.feed (l.tokens.map Prod.fst) = some q ∧
      q.finish ending = .error x

lemma Parser.failsAmong_of_refused {p : Parser} {ts : List Token} {l : Lexed} {cs : List Char}
    {later : List (Token × List Char)} (hl : l.tokens = ts.map (·, cs) ++ later)
    (h : Reader.takeTokens ending p ts = .refused x) : p.FailsAmong ending l x cs := by
  obtain ⟨us, t, vs, q, rfl, hf, ht⟩ := Reader.takeTokens_eq_refused h
  refine .inl ⟨us.map (·, cs), t, vs.map (·, cs) ++ later, q, by simpa using hl, ?_, ht⟩
  simpa [Function.comp_def] using hf

lemma Parser.FailsAmong.push {p q : Parser} {ts : List Token} {l : Lexed} {rest : List Char}
    (hf : p.feed ts = some q) (h : q.FailsAmong ending l x rest) (cs : List Char) :
    p.FailsAmong ending (l.push ts cs) x rest := by
  have hts : (ts.map (·, cs)).map Prod.fst = ts := by simp [Function.comp_def]
  rcases h with ⟨us, t, vs, r, hl, hr, ht⟩ | ⟨hrest, hfault, r, hr, hx⟩
  · refine .inl ⟨ts.map (·, cs) ++ us, t, vs, r, ?_, ?_, ht⟩
    · rw [Lexed.push, hl, List.append_assoc]
    · rw [List.map_append, hts, feed_append, hf, Option.bind_some, hr]
  · refine .inr ⟨hrest, hfault, r, ?_, hx⟩
    rw [Lexed.push, List.map_append, hts, feed_append, hf, Option.bind_some, hr]

lemma Reader.failsAmong_of_run {r : Reader} {cs rest : List Char}
    (h : r.run ending cs = (.error (.parse x), rest)) :
    r.parser.FailsAmong ending (lexFrom r.lexer cs) x rest := by
  induction cs generalizing r with
  | nil =>
    obtain ⟨hfin, rfl⟩ := Prod.mk.inj h
    rw [finish] at hfin
    rw [lexFrom]
    cases ht : r.lexer.finish with
    | error f => simp [ht] at hfin
    | ok t =>
      simp only [ht] at hfin ⊢
      cases hp : takeTokens ending r.parser t.toList with
      | closed e => simp [hp] at hfin
      | refused y =>
        obtain rfl : y = x := by simpa [hp] using hfin
        exact Parser.failsAmong_of_refused (List.append_nil _).symm hp
      | more p =>
        have hf := (takeTokens_eq_more_iff ending _ _ _).mp hp
        refine .inr ⟨rfl, rfl, p, by simpa [Function.comp_def] using hf, ?_⟩
        cases hx : p.finish ending <;> simp_all [Except.mapError]
  | cons c cs ih =>
    rw [lexFrom]
    match hs : r.lexer.step c with
    | ⟨ts, next⟩ =>
    simp only [run, feed, hs] at h ⊢
    cases hp : takeTokens ending r.parser ts with
    | closed e => simp [hp] at h
    | refused y =>
      simp only [hp] at h
      obtain ⟨hy, rfl⟩ := Prod.mk.inj h
      cases hy
      cases next with
      | ok l => exact Parser.failsAmong_of_refused rfl hp
      | error f => exact Parser.failsAmong_of_refused (List.append_nil _).symm hp
    | more p =>
      have hf := (takeTokens_eq_more_iff ending _ _ _).mp hp
      cases next with
      | ok l =>
        simp only [hp] at h
        exact (ih h).push hf cs
      | error f => simp [hp] at h

end

/-- A parser fails at the first token that cannot go on behind those before it, whatever comes next,
and at the end of tokens only if they can go on. What is behind the token is left as it is. In front
of a text, no more of it has been read than the lexer reads up to that token. -/
theorem fails_at_first_impossible (ending : Ending) (x : Expected) :
    (∀ ts rest, Parser.start.run ending ts = (.error x, rest) →
      (∃ us t, ts = us ++ t :: rest ∧ Completable ending us ∧ ¬ Completable ending (us ++ [t]) ∧
        ∀ vs, Parser.start.run ending (us ++ t :: vs) = (.error x, vs)) ∨
      rest = [] ∧ Completable ending ts ∧ ∀ e, parseTokens ending ts ≠ .ok e) ∧
    ∀ cs rest, parse ending cs = (.error (.parse x), rest) →
      (∃ us t vs, (lex cs).tokens = us ++ (t, rest) :: vs ∧
        Completable ending (us.map Prod.fst) ∧ ¬ Completable ending (us.map Prod.fst ++ [t])) ∨
      rest = [] ∧ ∃ ts, tokenize cs = .ok ts ∧ Completable ending ts ∧
        ∀ e, parseTokens ending ts ≠ .ok e := by
  have hexhausted {ts : List Token} {q : Parser} (hf : Parser.start.feed ts = some q)
      (hx : q.finish ending = .error x) (e : Expr) : parseTokens ending ts ≠ .ok e := by
    have hrun : Parser.start.run ending (ts ++ []) = q.run ending [] := Parser.run_of_feed hf []
    rw [List.append_nil, Parser.run, hx] at hrun
    simp [parseTokens, hrun]
  refine ⟨fun ts rest h => ?_, fun cs rest h => ?_⟩
  · rcases Parser.run_eq_error h with ⟨us, t, q, rfl, hf, ht⟩ | ⟨hrest, q, hf, hx⟩
    · refine .inl ⟨us, t, rfl, Parser.completable_of_feed ending hf, Parser.not_completable hf ht,
        fun vs => ?_⟩
      rw [Parser.run_of_feed hf, Parser.run_of_refused ht]
    · exact .inr ⟨hrest, Parser.completable_of_feed ending hf, hexhausted hf hx⟩
  · rcases Reader.failsAmong_of_run h with ⟨us, t, vs, q, hl, hf, ht⟩ | ⟨hrest, hfault, q, hf, hx⟩
    · exact .inl ⟨us, t, vs, hl, Parser.completable_of_feed ending hf, Parser.not_completable hf ht⟩
    · refine .inr ⟨hrest, (lex cs).tokens.map Prod.fst, ?_, Parser.completable_of_feed ending hf,
        hexhausted hf hx⟩
      have hnone : (lex cs).fault = none := hfault
      rw [tokenize, hnone]

theorem fails_at_first_impossible_unclosed :
    (Parser.start.run .brace [.pound, .ident "f", .openParen, .ident "a", .minus, .literal "c"] =
        (.error .closeParen, [.literal "c"]) ∧
      Completable .brace [.pound, .ident "f", .openParen, .ident "a"] ∧
      ¬ Completable .brace [.pound, .ident "f", .openParen, .ident "a", .minus]) ∧
    parse .brace "#f(a - 'c".toList = (.error (.parse .closeParen), " 'c".toList) ∧
      ∃ us t vs, (lex "#f(a - 'c".toList).tokens = us ++ (t, " 'c".toList) :: vs ∧
        Completable .brace (us.map Prod.fst) ∧ ¬ Completable .brace (us.map Prod.fst ++ [t]) := by
  have hrun : Parser.start.run .brace
      [.pound, .ident "f", .openParen, .ident "a", .minus, .literal "c"] =
        (.error .closeParen, [.literal "c"]) := rfl
  have hparse : parse .brace "#f(a - 'c".toList =
      (.error (.parse .closeParen), " 'c".toList) := by decide +kernel
  obtain ⟨htokens, htext⟩ := fails_at_first_impossible .brace .closeParen
  refine ⟨⟨hrun, ?_⟩, hparse, ?_⟩
  · rcases htokens _ _ hrun with ⟨us, t, hts, hc, hn, -⟩ | ⟨hrest, -⟩
    · have hsplit : [.pound, .ident "f", .openParen, .ident "a"] ++ [.minus, .literal "c"] =
          us ++ [t, .literal "c"] := hts
      obtain ⟨rfl, ht⟩ := List.append_inj' hsplit rfl
      obtain rfl := (List.cons.inj ht).1
      exact ⟨hc, hn⟩
    · cases hrest
  · rcases htext _ _ hparse with h | ⟨hrest, -⟩
    · exact h
    · cases hrest

end Scaffold.Expr
