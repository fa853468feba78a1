import Scaffold.Expr.Evaluate
import Scaffold.Proofs.Expr.Grammar
import Scaffold.Proofs.Expr.Lexemes
import Scaffold.Proofs.Expr.ParserInvariant

namespace Scaffold.Expr

section

variable {cs a b : List Char} {ts us : List Token} {c : Char}

namespace Token

lemma isExtendedBy_closeParen (t : Token) : t.isExtendedBy ')' = false := by
  have hname : isNameChar ')' = false := by decide +kernel
  cases t with
  | ident name => exact hname
  | question | assign => rfl
  | _ => rfl

end Token

lemma CutsInto.gap {gap : List Char} (hgap : AllBlank gap) (h : CutsInto cs ts) :
    CutsInto (gap ++ cs) ts := by
  induction gap with
  | nil => exact h
  | cons c gap ih =>
    exact (ih fun d hd => hgap d (List.mem_cons_of_mem c hd)).blank (hgap c List.mem_cons_self)

lemma Lexemes.append (h : Lexemes a ts) (hb : ∀ c ∈ b.head?, ∀ t : Token, t.isExtendedBy c = false)
    (hus : CutsInto b us) : CutsInto (a ++ b) (ts ++ us) := by
  induction h with
  | nil => exact hus
  | @cons lexeme gap rest t ts ht hgap hext _ ih =>
    have hc : ∀ c ∈ (gap ++ (rest ++ b)).head?, t.isExtendedBy c = false := by
      cases gap with
      | nil =>
        cases rest with
        | nil => exact fun c hc => hb c hc t
        | cons d rest => exact hext rfl
      | cons g gap =>
        rintro c ⟨⟩
        exact Token.isExtendedBy_blank (hgap _ List.mem_cons_self) t
    rw [List.append_assoc, List.append_assoc]
    exact (ih.gap hgap).cons ht hc

lemma CutsInto.append (h : CutsInto a ts)
    (hb : ∀ c ∈ b.head?, ∀ t : Token, t.isExtendedBy c = false) (hus : CutsInto b us) :
    CutsInto (a ++ b) (ts ++ us) := by
  obtain ⟨gap, rest, rfl, hgap, hrest⟩ := h
  rw [List.append_assoc]
  exact (hrest.append hb hus).gap hgap

lemma tokenize_eq_tokensFrom (cs : List Char) : tokenize cs = Lexer.blank.tokensFrom cs := rfl

lemma cutsInto_of_tokenize (h : tokenize cs = .ok ts) : CutsInto cs ts :=
  Lexer.completes cs .blank [] ts .blank h

lemma tokenize_of_cutsInto (h : CutsInto cs ts) : tokenize cs = .ok ts :=
  Lexer.tokensFrom_of_cutsInto h

end

namespace Lexer

lemma tokensFrom_eq_ok_iff {l : Lexer} {cs : List Char} {ts : List Token} :
    l.tokensFrom cs = .ok ts ↔ ∃ us m t, l.consume cs = some (us, m) ∧ m.finish = .ok t ∧
      ts = us ++ t.toList := by
  constructor
  · intro h
    induction cs generalizing l ts with
    | nil =>
      rw [tokensFrom_nil] at h
      cases hl : l.finish with
      | error f =>
        rw [hl] at h
        cases h
      | ok t =>
        rw [hl] at h
        exact ⟨[], l, t, rfl, hl, (Except.ok.inj h).symm⟩
    | cons c cs ih =>
      match hs : l.step c with
      | ⟨us, .error f⟩ =>
        rw [tokensFrom_fault hs] at h
        cases h
      | ⟨us, .ok next⟩ =>
        obtain ⟨vs, hvs, rfl⟩ := tokensFrom_cons_eq_ok hs h
        obtain ⟨ws, m, t, hc, ht, rfl⟩ := ih hvs
        exact ⟨us ++ ws, m, t, by rw [consume_cons hs, hc]; rfl, ht, by rw [List.append_assoc]⟩
  · rintro ⟨us, m, t, hc, ht, rfl⟩
    have h := tokensFrom_append hc []
    rw [List.append_nil, tokensFrom_nil, ht] at h
    exact h

end Lexer

lemma Level.start_add (ws : List Waiting) (e : Expr) : (start ws).add e = ⟨ws, [], e⟩ := by
  rw [start, add, absent_append]

namespace Parser

variable {p q : Parser} {t : Token} {ts us : List Token} {e f : Expr}

lemma parseTokens_text_eq_ok_iff :
    parseTokens .text ts = .ok e ↔ ∃ q, start.feed ts = some q ∧ q.result? = some e :=
  run_text_eq_ok_iff start ts e

lemma parseTokens_of_feed {l : Level} (h : start.feed ts = some ⟨.terms l, []⟩) :
    parseTokens .text ts = .ok l.value :=
  parseTokens_text_eq_ok_iff.mpr ⟨_, h, rfl⟩

def within (p : Parser) (hs : List Holder) : Parser :=
  ⟨p.focus, p.holders ++ hs⟩

lemma acceptInArguments_within {outer : Level} {opened : OpenCall} {ks : List Holder}
    (h : acceptInArguments outer opened ks t = some q) (hs : List Holder) :
    acceptInArguments outer opened (ks ++ hs) t = some (q.within hs) := by
  cases t <;> cases h <;> rfl

lemma acceptAtEnd_within {level : Level} {ks : List Holder}
    (h : acceptAtEnd level ks t = some q) (hs : List Holder) :
    acceptAtEnd level (ks ++ hs) t = some (q.within hs) := by
  cases ks with
  | nil => cases h
  | cons k ks =>
    cases k with
    | group outer | success waiting test =>
      simp only [acceptAtEnd] at h
      split at h <;> cases h
      subst t
      rfl
    | file outer function | value outer opened name => exact acceptInArguments_within h hs

lemma accept_within (h : p.accept t = some q) (hs : List Holder) :
    (p.within hs).accept t = some (q.within hs) := by
  obtain ⟨focus, ks⟩ := p
  cases focus with
  | terms level =>
    cases t with
    | closeBracket | colon | closeParen | comma | assign | minus => exact acceptAtEnd_within h hs
    | _ =>
      cases h
      rfl
  | function outer =>
    cases t <;> cases h
    rfl
  | parenthesis outer function =>
    simp only [accept] at h
    split at h <;> cases h
    subst t
    rfl
  | argument outer opened | undefined outer opened =>
    cases t <;> cases h <;> rfl
  | named outer opened name =>
    simp only [accept] at h
    split at h
    · cases h
      subst t
      rfl
    · rename_i ht
      simp only [within, accept, if_neg ht]
      exact acceptInArguments_within h hs
  | argumentEnd outer opened => exact acceptInArguments_within h hs

lemma feed_within (h : p.feed ts = some q) (hs : List Holder) :
    (p.within hs).feed ts = some (q.within hs) := by
  induction ts generalizing p with
  | nil =>
    cases h
    rfl
  | cons t ts ih =>
    obtain ⟨p', ha, hf⟩ := Option.bind_eq_some_iff.mp h
    rw [feed_cons, accept_within ha, Option.bind_some]
    exact ih hf

lemma feed_whole (h : parseTokens .text ts = .ok e) (hs : List Holder) :
    ∃ l, feed ⟨.terms (.start []), hs⟩ ts = some ⟨.terms l, hs⟩ ∧ l.value = e := by
  obtain ⟨⟨focus, ks⟩, hf, hr⟩ := parseTokens_text_eq_ok_iff.mp h
  cases ks with
  | cons k ks => cases focus <;> cases hr
  | nil =>
    cases focus with
    | terms l => exact ⟨l, feed_within hf hs, Option.some.inj hr⟩
    | _ => cases hr

lemma feed_group (h : parseTokens .text ts = .ok e) (l : Level) (hs : List Holder) :
    feed ⟨.terms l, hs⟩ (.openParen :: (ts ++ [.closeParen])) = some ⟨.terms (l.add e), hs⟩ := by
  obtain ⟨m, hm, hv⟩ := feed_whole h (.group l :: hs)
  have hopen : accept ⟨.terms l, hs⟩ .openParen = some ⟨.terms (.start []), .group l :: hs⟩ := rfl
  have hclose : accept ⟨.terms m, .group l :: hs⟩ .closeParen = some ⟨.terms (l.add e), hs⟩ := by
    rw [← hv]
    rfl
  rw [feed_cons, hopen, Option.bind_some, feed_append, hm, Option.bind_some, feed_cons, hclose]
  rfl

end Parser

lemma ofText_eq_ok_iff {s : String} {e : Expr} :
    ofText s = .ok e ↔ ∃ ts, tokenize s.toList = .ok ts ∧ parseTokens .text ts = .ok e := by
  have hread : ofText s = .ok e ↔ ∃ q, Reader.start.reach s.toList = some q ∧
      q.finish .text = .ok e := Reader.run_text_iff _ _ e
  simp only [hread, tokenize_eq_tokensFrom, Lexer.tokensFrom_eq_ok_iff,
    Parser.parseTokens_text_eq_ok_iff, Reader.reach_eq_consume, Reader.finish_text_iff]
  constructor
  · rintro ⟨q, hq, t, p, ht, hp, hr⟩
    obtain ⟨⟨us, m⟩, hc, hq⟩ := Option.bind_eq_some_iff.mp hq
    obtain ⟨p', hfeed, rfl⟩ := Option.map_eq_some_iff.mp hq
    refine ⟨us ++ t.toList, ⟨us, m, t, hc, ht, rfl⟩, p, ?_, hr⟩
    rw [Parser.feed_append]
    exact Option.bind_eq_some_iff.mpr ⟨p', hfeed, hp⟩
  · rintro ⟨_, ⟨us, m, t, hc, ht, rfl⟩, p, hf, hr⟩
    rw [Parser.feed_append] at hf
    obtain ⟨p', hfeed, hp⟩ := Option.bind_eq_some_iff.mp hf
    refine ⟨⟨m, p'⟩, ?_, t, p, ht, hp, hr⟩
    exact Option.bind_eq_some_iff.mpr ⟨(us, m), hc, Option.map_eq_some_iff.mpr ⟨p', hfeed, rfl⟩⟩

lemma Lexemes.ident {cs : List Char} {ts : List Token} {n : String} (h : Lexemes cs ts)
    (hn : .ident n ∈ ts) : isIdentifier n = true ∧ n.toList <:+: cs := by
  induction h with
  | nil => cases hn
  | @cons lexeme gap rest t ts ht _ _ _ ih =>
    rcases List.mem_cons.mp hn with rfl | hn
    · cases ht with
      | operator ht => cases ht
      | ident hname => exact ⟨hname, [], gap ++ rest, by simp⟩
    · exact ⟨(ih hn).1, (ih hn).2.trans (List.suffix_append _ rest).isInfix⟩

lemma Closed.of_ofText {fit : String → Prop} {good : Expr → Prop} (h : Closed fit good)
    {s : String} {e : Expr} (hs : ofText s = .ok e)
    (hfit : ∀ n, isIdentifier n = true → n.toList <:+: s.toList → fit n) : good e := by
  obtain ⟨ts, hts, hp⟩ := ofText_eq_ok_iff.mp hs
  obtain ⟨gap, rest, hcs, -, hrest⟩ := cutsInto_of_tokenize hts
  obtain ⟨q, hf, hr⟩ := Parser.parseTokens_text_eq_ok_iff.mp hp
  refine h.of_tokens (fun n hn => ?_) hf hr
  obtain ⟨hname, hin⟩ := hrest.ident hn
  rw [hcs] at hfit
  exact hfit n hname (hin.trans (List.suffix_append gap rest).isInfix)

def renderText (fs : FileSystem) (ctx : Context) (s : String) :
    Except SyntaxFault (Rendering Bool) :=
  (ofText s).map (render fs ctx)

lemma renderText_eq_ok_iff {fs : FileSystem} {ctx : Context} {s : String} {r : Rendering Bool} :
    renderText fs ctx s = .ok r ↔ ∃ e, ofText s = .ok e ∧ render fs ctx e = r := by
  rw [renderText]
  cases ofText s <;> simp [Except.map]

end Scaffold.Expr
