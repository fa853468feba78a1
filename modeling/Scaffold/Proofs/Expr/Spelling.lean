import Scaffold.Proofs.Expr.Canonical

namespace Scaffold.Expr

def isItem : Expr → Bool
  | .var _ | .lit _ | .call .. => true
  | _ => false

def isSeq : Expr → Bool
  | .seq .. => true
  | _ => false

def isEquals : Expr → Bool
  | .equals .. => true
  | _ => false

def isChoice : Expr → Bool
  | .cond .. | .orElse .. => true
  | _ => false

def grouped (parentheses : Bool) (ts : List Token) : List Token :=
  if parentheses then .openParen :: ts ++ [.closeParen] else ts

def undefineTokens (names : List String) : List Token :=
  names.flatMap fun n => [.comma, .minus, .ident n]

mutual

def tokens : Expr → List Token
  | .absent => []
  | .var name => [.ident name]
  | .lit text => [.literal text]
  | .seq a b =>
    grouped (a.isEquals || a.isChoice) a.tokens ++
      grouped (b.isSeq || b.isEquals || b.isChoice) b.tokens
  | .equals l r =>
    grouped (l.isEquals || l.isChoice) l.tokens ++ .equals :: grouped r.isChoice r.tokens
  | .cond t s f => grouped t.isChoice t.tokens ++ .question :: s.tokens ++ .colon :: f.tokens
  | .orElse p f => grouped p.isChoice p.tokens ++ .nullCheck :: f.tokens
  | .call function file define undefine =>
    .pound :: .ident function :: .openParen :: file.tokens ++ defineTokens define ++
      undefineTokens undefine ++ [.closeParen]

def defineTokens : Defines → List Token
  | .nil => []
  | .cons n v rest => .comma :: .ident n :: .assign :: v.tokens ++ defineTokens rest

end

def spelling (e : Expr) : String :=
  String.ofList ([' '].intercalate (e.tokens.map Token.spelling))

lemma all_grouped (b : Bool) (ts : List Token) :
    (grouped b ts).all Token.isLexical = ts.all Token.isLexical := by
  cases b <;> simp [grouped, Token.isLexical]

lemma all_undefineTokens (names : List String) :
    (undefineTokens names).all Token.isLexical = names.all isIdentifier := by
  simp [undefineTokens, List.all_flatMap, Token.isLexical]

mutual

lemma tokens_isLexical (e : Expr) (h : e.isCanonical = true) :
    e.tokens.all Token.isLexical = true := by
  cases e with
  | absent => rfl
  | var name => simpa [tokens, Token.isLexical, isCanonical] using h
  | lit text => rfl
  | seq a b =>
    simp only [isCanonical, Bool.and_eq_true] at h
    simp [tokens, all_grouped, tokens_isLexical a h.1.2, tokens_isLexical b h.2, -List.all_eq_true]
  | equals l r =>
    simp only [isCanonical, Bool.and_eq_true] at h
    simp [tokens, all_grouped, tokens_isLexical l h.1, tokens_isLexical r h.2, Token.isLexical,
      -List.all_eq_true]
  | cond t s f =>
    simp only [isCanonical, Bool.and_eq_true] at h
    simp [tokens, all_grouped, tokens_isLexical t h.1.1, tokens_isLexical s h.1.2,
      tokens_isLexical f h.2, Token.isLexical, -List.all_eq_true]
  | orElse p f =>
    simp only [isCanonical, Bool.and_eq_true] at h
    simp [tokens, all_grouped, tokens_isLexical p h.1, tokens_isLexical f h.2, Token.isLexical,
      -List.all_eq_true]
  | call function file define undefine =>
    simp only [isCanonical, Bool.and_eq_true] at h
    simp [tokens, tokens_isLexical file h.1.1.1.2, defineTokens_isLexical define h.1.1.2,
      all_undefineTokens, h.2, h.1.1.1.1, Token.isLexical, -List.all_eq_true]

lemma defineTokens_isLexical (d : Defines) (h : definesCanonical d = true) :
    (defineTokens d).all Token.isLexical = true := by
  cases d with
  | nil => rfl
  | cons n v rest =>
    simp only [definesCanonical, Bool.and_eq_true] at h
    simp [defineTokens, h.1.1, tokens_isLexical v h.1.2, defineTokens_isLexical rest h.2,
      Token.isLexical, -List.all_eq_true]

end

structure Reads (e : Expr) : Prop where
  whole : ∀ ws hs, ∃ l, Parser.feed ⟨.terms (.start ws), hs⟩ e.tokens = some ⟨.terms l, hs⟩ ∧
    l.value = ws.foldl Waiting.close e
  comparison : e.isChoice = false → ∀ ws lefts hs, ∃ l,
    Parser.feed ⟨.terms ⟨ws, lefts, .absent⟩, hs⟩ e.tokens = some ⟨.terms l, hs⟩ ∧
      l.waiting = ws ∧ l.comparison = lefts.foldl (fun e left => .equals left e) e
  terms : e.isChoice = false → e.isEquals = false → ∀ ws lefts hs,
    Parser.feed ⟨.terms ⟨ws, lefts, .absent⟩, hs⟩ e.tokens = some ⟨.terms ⟨ws, lefts, e⟩, hs⟩
  item : e.isItem = true → ∀ l hs,
    Parser.feed ⟨.terms l, hs⟩ e.tokens = some ⟨.terms (l.add e), hs⟩

namespace Reads

variable {e : Expr}

lemma of_whole (hc : e.isChoice = true)
    (h : ∀ ws hs, ∃ l, Parser.feed ⟨.terms (.start ws), hs⟩ e.tokens = some ⟨.terms l, hs⟩ ∧
      l.value = ws.foldl Waiting.close e) : Reads e where
  whole := h
  comparison hn := by simp [hc] at hn
  terms hn := by simp [hc] at hn
  item hi := by cases e <;> simp [isChoice, isItem] at hc hi

lemma of_comparison (he : e.isEquals = true)
    (h : ∀ ws lefts hs, ∃ l,
      Parser.feed ⟨.terms ⟨ws, lefts, .absent⟩, hs⟩ e.tokens = some ⟨.terms l, hs⟩ ∧
        l.waiting = ws ∧ l.comparison = lefts.foldl (fun e left => .equals left e) e) :
    Reads e where
  whole ws hs := by
    obtain ⟨l, hl, hw, hv⟩ := h ws [] hs
    exact ⟨l, hl, by rw [Level.value, hw, hv]; rfl⟩
  comparison _ := h
  terms _ hn := by simp [he] at hn
  item hi := by cases e <;> simp [isEquals, isItem] at he hi

lemma of_terms (hi : e.isItem = false)
    (h : ∀ ws lefts hs, Parser.feed ⟨.terms ⟨ws, lefts, .absent⟩, hs⟩ e.tokens =
      some ⟨.terms ⟨ws, lefts, e⟩, hs⟩) : Reads e where
  whole ws hs := ⟨_, h ws [] hs, rfl⟩
  comparison _ ws lefts hs := ⟨_, h ws lefts hs, rfl, rfl⟩
  terms _ _ := h
  item hn := by simp [hi] at hn

lemma of_item (h : ∀ l hs, Parser.feed ⟨.terms l, hs⟩ e.tokens = some ⟨.terms (l.add e), hs⟩) :
    Reads e where
  whole ws hs := ⟨_, h _ hs, by simp [Level.value, Level.comparison, Level.add, Level.start]⟩
  comparison _ ws lefts hs := ⟨_, h _ hs, rfl, by simp [Level.comparison, Level.add]⟩
  terms _ _ ws lefts hs := by simp [h, Level.add]
  item _ := h

lemma parenthesized (he : Reads e) (l : Level) (hs : List Holder) :
    Parser.feed ⟨.terms l, hs⟩ (grouped true e.tokens) = some ⟨.terms (l.add e), hs⟩ := by
  obtain ⟨m, hm, hv⟩ := he.whole [] (.group l :: hs)
  have hopen : Parser.accept ⟨.terms l, hs⟩ .openParen =
      some ⟨.terms (.start []), .group l :: hs⟩ := rfl
  have hclose : Parser.accept ⟨.terms m, .group l :: hs⟩ .closeParen =
      some ⟨.terms (l.add e), hs⟩ := by
    simp [Parser.accept, Parser.acceptAtEnd, hv]
  simp [grouped, Parser.feed_cons, Parser.feed_append, hopen, hm, hclose]

lemma laterTerm (he : Reads e) (hn : e ≠ .absent) (l : Level) (hs : List Holder) :
    Parser.feed ⟨.terms l, hs⟩ (grouped (e.isSeq || e.isEquals || e.isChoice) e.tokens) =
      some ⟨.terms (l.add e), hs⟩ := by
  cases hg : e.isSeq || e.isEquals || e.isChoice with
  | true => exact he.parenthesized l hs
  | false =>
    refine he.item ?_ l hs
    cases e <;> simp_all [isItem, isSeq, isEquals, isChoice]

lemma firstTerms (he : Reads e) (ws : List Waiting) (lefts : List Expr) (hs : List Holder) :
    Parser.feed ⟨.terms ⟨ws, lefts, .absent⟩, hs⟩ (grouped (e.isEquals || e.isChoice) e.tokens) =
      some ⟨.terms ⟨ws, lefts, e⟩, hs⟩ := by
  cases hg : e.isEquals || e.isChoice with
  | true => simp [he.parenthesized, Level.add]
  | false =>
    obtain ⟨h1, h2⟩ := Bool.or_eq_false_iff.mp hg
    exact he.terms h2 h1 ws lefts hs

lemma operand (he : Reads e) (ws : List Waiting) (lefts : List Expr) (hs : List Holder) :
    ∃ l, Parser.feed ⟨.terms ⟨ws, lefts, .absent⟩, hs⟩ (grouped e.isChoice e.tokens) =
        some ⟨.terms l, hs⟩ ∧
      l.waiting = ws ∧ l.comparison = lefts.foldl (fun e left => .equals left e) e := by
  cases hg : e.isChoice with
  | true => exact ⟨_, he.parenthesized _ hs, rfl, by simp [Level.comparison, Level.add]⟩
  | false => exact he.comparison hg ws lefts hs

lemma seq {a b : Expr} (ha : Reads a) (hb : Reads b) (na : a ≠ .absent) (nb : b ≠ .absent) :
    Reads (.seq a b) := by
  apply of_terms rfl
  intro ws lefts hs
  have happ : a.append b = .seq a b := by
    cases a <;> cases b <;> simp_all [append]
  rw [tokens, Parser.feed_append, ha.firstTerms, Option.bind_some, hb.laterTerm nb]
  simp [Level.add, happ]

lemma equals {l r : Expr} (hl : Reads l) (hr : Reads r) : Reads (.equals l r) := by
  apply of_comparison rfl
  intro ws lefts hs
  have hcmp : Parser.accept ⟨.terms ⟨ws, lefts, l⟩, hs⟩ .equals =
      some ⟨.terms ⟨ws, l :: lefts, .absent⟩, hs⟩ := rfl
  obtain ⟨m, hm, hw, hv⟩ := hr.operand ws (l :: lefts) hs
  refine ⟨m, ?_, hw, hv⟩
  rw [tokens, Parser.feed_append, hl.firstTerms, Option.bind_some, Parser.feed_cons, hcmp,
    Option.bind_some, hm]

lemma cond {t s f : Expr} (ht : Reads t) (hs : Reads s) (hf : Reads f) :
    Reads (.cond t s f) := by
  apply of_whole rfl
  intro ws hold
  obtain ⟨l, hl, hw, hv⟩ := ht.operand ws [] hold
  have hq : Parser.accept ⟨.terms l, hold⟩ .question =
      some ⟨.terms (.start []), .success ws t :: hold⟩ := by
    simp [Parser.accept, hw, hv]
  obtain ⟨m, hm, hmv⟩ := hs.whole [] (.success ws t :: hold)
  have hc : Parser.accept ⟨.terms m, .success ws t :: hold⟩ .colon =
      some ⟨.terms (.start (.failure t s :: ws)), hold⟩ := by
    simp [Parser.accept, Parser.acceptAtEnd, hmv]
  obtain ⟨n, hn, hnv⟩ := hf.whole (.failure t s :: ws) hold
  refine ⟨n, ?_, hnv⟩
  have hl' : Parser.feed ⟨.terms (.start ws), hold⟩ (grouped t.isChoice t.tokens) =
      some ⟨.terms l, hold⟩ := hl
  simp [tokens, Parser.feed_append, Parser.feed_cons, hl', hq, hm, hc, hn]

lemma orElse {p f : Expr} (hp : Reads p) (hf : Reads f) : Reads (.orElse p f) := by
  apply of_whole rfl
  intro ws hold
  obtain ⟨l, hl, hw, hv⟩ := hp.operand ws [] hold
  have hq : Parser.accept ⟨.terms l, hold⟩ .nullCheck =
      some ⟨.terms (.start (.fallback p :: ws)), hold⟩ := by
    simp [Parser.accept, hw, hv]
  obtain ⟨n, hn, hnv⟩ := hf.whole (.fallback p :: ws) hold
  refine ⟨n, ?_, hnv⟩
  have hl' : Parser.feed ⟨.terms (.start ws), hold⟩ (grouped p.isChoice p.tokens) =
      some ⟨.terms l, hold⟩ := hl
  simp [tokens, Parser.feed_append, Parser.feed_cons, hl', hq, hn]

end Reads

def EndsArgument (p : Parser) (outer : Level) (c : OpenCall) (hs : List Holder) : Prop :=
  ∀ t, t = .comma ∨ t = .closeParen → p.accept t = Parser.acceptInArguments outer c hs t

namespace EndsArgument

variable {p : Parser} {outer : Level} {c : OpenCall} {hs : List Holder}

lemma comma (h : EndsArgument p outer c hs) : p.accept .comma = some ⟨.argument outer c, hs⟩ :=
  h .comma (.inl rfl)

lemma closeParen (h : EndsArgument p outer c hs) :
    p.accept .closeParen = some ⟨.terms (outer.add c.close), hs⟩ :=
  h .closeParen (.inr rfl)

lemma of_file (l : Level) (function : String) :
    EndsArgument ⟨.terms l, .file outer function :: hs⟩ outer ⟨function, l.value, .nil, []⟩ hs := by
  rintro t (rfl | rfl) <;> rfl

lemma of_value (l : Level) (name : String) :
    EndsArgument ⟨.terms l, .value outer c name :: hs⟩ outer (c.set name l.value) hs := by
  rintro t (rfl | rfl) <;> rfl

lemma undefines (names : List String) (h : EndsArgument p outer c hs) :
    ∃ q, p.feed (undefineTokens names) = some q ∧
      EndsArgument q outer { c with undefine := c.undefine ++ names } hs := by
  induction names generalizing p c with
  | nil => exact ⟨p, rfl, by simpa using h⟩
  | cons n names ih =>
    have hend : EndsArgument ⟨.argumentEnd outer (c.unset n), hs⟩ outer (c.unset n) hs := by
      rintro t (rfl | rfl) <;> rfl
    obtain ⟨q, hq, he⟩ := ih hend
    have hminus : Parser.accept ⟨.argument outer c, hs⟩ .minus = some ⟨.undefined outer c, hs⟩ := rfl
    have hname : Parser.accept ⟨.undefined outer c, hs⟩ (.ident n) =
        some ⟨.argumentEnd outer (c.unset n), hs⟩ := rfl
    refine ⟨q, ?_, by simpa [OpenCall.unset] using he⟩
    have htokens : undefineTokens (n :: names) =
        .comma :: .minus :: .ident n :: undefineTokens names := rfl
    simp [htokens, Parser.feed_cons, h.comma, hminus, hname, hq]

lemma define {ts : List Token} {v : Expr} (n : String)
    (hv : ∀ ks, ∃ l, Parser.feed ⟨.terms (.start []), ks⟩ ts = some ⟨.terms l, ks⟩ ∧ l.value = v)
    (h : EndsArgument p outer c hs) :
    ∃ q, p.feed (.comma :: .ident n :: .assign :: ts) = some q ∧
      EndsArgument q outer (c.set n v) hs := by
  obtain ⟨l, hl, hlv⟩ := hv (.value outer c n :: hs)
  have hname : Parser.accept ⟨.argument outer c, hs⟩ (.ident n) = some ⟨.named outer c n, hs⟩ := rfl
  have hassign : Parser.accept ⟨.named outer c n, hs⟩ .assign =
      some ⟨.terms (.start []), .value outer c n :: hs⟩ := rfl
  refine ⟨⟨.terms l, .value outer c n :: hs⟩, ?_, ?_⟩
  · simp [Parser.feed_cons, h.comma, hname, hassign, hl]
  · have he : EndsArgument ⟨.terms l, .value outer c n :: hs⟩ outer (c.set n l.value) hs :=
      of_value l n
    rwa [hlv] at he

end EndsArgument

def setAll (base : Defines) : Defines → Defines
  | .nil => base
  | .cons n v rest => setAll (base.set n v) rest

def appendDefines : Defines → Defines → Defines
  | .nil, e => e
  | .cons n v rest, e => .cons n v (appendDefines rest e)

lemma append_nil (d : Defines) : appendDefines d .nil = d := by
  cases d with
  | nil => rfl
  | cons m w rest => rw [appendDefines, append_nil rest]

lemma set_of_not_mem (d : Defines) {n : String} (v : Expr) (h : n ∉ d.names) :
    d.set n v = appendDefines d (.cons n v .nil) := by
  cases d with
  | nil => rfl
  | cons m w rest =>
    obtain ⟨hm, hr⟩ := not_or.mp (mt List.mem_cons.mpr h)
    rw [Defines.set, if_neg (Ne.symm hm), set_of_not_mem rest v hr]
    rfl

lemma names_append (d e : Defines) : (appendDefines d e).names = d.names ++ e.names := by
  cases d with
  | nil => rfl
  | cons m w rest => simp [appendDefines, Defines.names, names_append rest e]

lemma append_cons (d rest : Defines) (n : String) (v : Expr) :
    appendDefines (appendDefines d (.cons n v .nil)) rest = appendDefines d (.cons n v rest) := by
  cases d with
  | nil => rfl
  | cons m w more => simp [appendDefines, append_cons more rest n v]

lemma setAll_eq_append (base d : Defines) (h : (base.names ++ d.names).Nodup) :
    setAll base d = appendDefines base d := by
  cases d with
  | nil => exact (append_nil base).symm
  | cons n v rest =>
    have hn : n ∉ base.names := fun hb =>
      (List.nodup_append.mp h).2.2 n hb n List.mem_cons_self rfl
    have hset := set_of_not_mem base v hn
    rw [setAll, hset, setAll_eq_append _ rest, append_cons]
    simpa [names_append, Defines.names] using h

lemma setAll_nil {d : Defines} (h : d.names.Nodup) : setAll .nil d = d :=
  setAll_eq_append .nil d h

mutual

lemma reads (e : Expr) (h : e.isCanonical = true) : Reads e := by
  cases e with
  | absent => exact Reads.of_terms rfl fun _ _ _ => rfl
  | var name => exact Reads.of_item fun _ _ => rfl
  | lit text => exact Reads.of_item fun _ _ => rfl
  | seq a b =>
    simp only [isCanonical, Bool.and_eq_true, decide_eq_true_eq] at h
    exact (reads a h.1.2).seq (reads b h.2) h.1.1.1 h.1.1.2
  | equals l r =>
    simp only [isCanonical, Bool.and_eq_true] at h
    exact (reads l h.1).equals (reads r h.2)
  | cond t s f =>
    simp only [isCanonical, Bool.and_eq_true] at h
    exact (reads t h.1.1).cond (reads s h.1.2) (reads f h.2)
  | orElse p f =>
    simp only [isCanonical, Bool.and_eq_true] at h
    exact (reads p h.1).orElse (reads f h.2)
  | call function file define undefine =>
    simp only [isCanonical, Bool.and_eq_true, decide_eq_true_eq] at h
    apply Reads.of_item
    intro outer hs
    have hpound : Parser.accept ⟨.terms outer, hs⟩ .pound = some ⟨.function outer, hs⟩ := rfl
    have hname : Parser.accept ⟨.function outer, hs⟩ (.ident function) =
        some ⟨.parenthesis outer function, hs⟩ := rfl
    have hopen : Parser.accept ⟨.parenthesis outer function, hs⟩ .openParen =
        some ⟨.terms (.start []), .file outer function :: hs⟩ := rfl
    obtain ⟨l, hl, hv⟩ := (reads file h.1.1.1.2).whole [] (.file outer function :: hs)
    have hfile : EndsArgument ⟨.terms l, .file outer function :: hs⟩ outer
        ⟨function, l.value, .nil, []⟩ hs := EndsArgument.of_file l function
    obtain ⟨p, hp, hdef⟩ := defines_end define h.1.1.2 hfile
    obtain ⟨q, hq, hend⟩ := hdef.undefines undefine
    have hclose : q.accept .closeParen =
        some ⟨.terms (outer.add (.call function file define undefine)), hs⟩ := by
      rw [hend.closeParen]
      simp [OpenCall.close, hv, setAll_nil h.1.2]
    simp [tokens, Parser.feed_cons, Parser.feed_append, hpound, hname, hopen, hl, hp, hq, hclose]

lemma defines_end (d : Defines) (h : definesCanonical d = true) {p : Parser} {outer : Level}
    {c : OpenCall} {hs : List Holder} (hp : EndsArgument p outer c hs) :
    ∃ q, p.feed (defineTokens d) = some q ∧
      EndsArgument q outer { c with define := setAll c.define d } hs := by
  cases d with
  | nil => exact ⟨p, rfl, hp⟩
  | cons n v rest =>
    simp only [definesCanonical, Bool.and_eq_true] at h
    obtain ⟨q, hq, he⟩ := hp.define n ((reads v h.1.2).whole [])
    obtain ⟨r, hr, hrest⟩ := defines_end rest h.2 he
    have htokens : defineTokens (.cons n v rest) =
        (.comma :: .ident n :: .assign :: v.tokens) ++ defineTokens rest := by
      simp [defineTokens]
    refine ⟨r, ?_, hrest⟩
    rw [htokens, Parser.feed_append, hq]
    exact hr

end

lemma spelling_blank {ts : List Token} (h : ts ≠ []) :
    [' '].intercalate (ts.map Token.spelling) ++ [' '] =
      ts.flatMap fun t => t.spelling ++ [' '] := by
  induction ts with
  | nil => exact absurd rfl h
  | cons t ts ih =>
    cases ts with
    | nil => simp
    | cons u us =>
      have hu := ih (List.cons_ne_nil u us)
      simp only [List.map_cons, List.flatMap_cons] at hu ⊢
      rw [List.intercalate_cons_cons, List.append_assoc, List.append_assoc, hu]
      simp

lemma run_text_of_blank {r : Reader} {cs : List Char} {e : Expr}
    (h : (r.run .text (cs ++ [' '])).1 = .ok e) : (r.run .text cs).1 = .ok e := by
  obtain ⟨q, hq, hf⟩ := (Reader.run_text_iff _ _ e).mp h
  rw [Reader.reach_append] at hq
  obtain ⟨m, hm, hn⟩ := Option.bind_eq_some_iff.mp hq
  have hstep : m.next? ' ' = some q := by
    simpa [Reader.reach_cons] using hn
  refine (Reader.run_text_iff _ _ e).mpr ⟨m, hm, (Reader.finish_text_iff _ e).mpr ?_⟩
  obtain ⟨u, p, hu, hp, he⟩ := (Reader.finish_text_iff _ e).mp hf
  cases ht : m.lexer.finish with
  | error f =>
    obtain ⟨acc, hs⟩ := Lexer.step_space_of_error ht
    obtain rfl : ⟨.quoted acc, m.parser⟩ = q := by simpa [Reader.next?, hs] using hstep
    cases hu
  | ok t =>
    simp only [Reader.next?, Lexer.step_space ht] at hstep
    obtain ⟨p', hp', rfl⟩ := Option.map_eq_some_iff.mp hstep
    cases hu
    cases hp
    exact ⟨t, p', rfl, hp', he⟩

lemma ofText_spelling (e : Expr) (h : e.isCanonical = true) : ofText e.spelling = .ok e := by
  obtain ⟨l, hl, hv⟩ := (reads e h).whole [] []
  have hread : ∀ cs, Lexer.blank.consume cs = some (e.tokens, .blank) →
      (parse .text cs).1 = .ok e := by
    intro cs hc
    refine (Reader.run_text_iff _ _ e).mpr ⟨⟨.blank, .terms l, []⟩, ?_, ?_⟩
    · have hfeed : Reader.start.parser.feed e.tokens = some ⟨.terms l, []⟩ := hl
      have hcs : Reader.start.lexer.consume cs = some (e.tokens, .blank) := hc
      simp [Reader.reach_eq_consume, hcs, hfeed]
    · exact (Reader.finish_text_iff _ e).mpr ⟨none, ⟨.terms l, []⟩, rfl, rfl, congrArg some hv⟩
  by_cases hn : e.tokens = []
  · exact hread _ (by simp [spelling, hn, Lexer.consume])
  · refine run_text_of_blank (hread _ ?_)
    rw [spelling, String.toList_ofList, spelling_blank hn]
    exact Lexer.consume_spellings (List.all_eq_true.mp (tokens_isLexical e h))

theorem canonical_and_spelling :
    (∀ s e, ofText s = .ok e → e.isCanonical = true) ∧
      ∀ e : Expr, e.isCanonical = true → ofText e.spelling = .ok e :=
  ⟨fun _ _ => canonical_of_ofText, ofText_spelling⟩

example : ofText "( a ? 'it\\'s' : ) == b ( c d ) ( == )" =
    .ok (.equals (.cond (.var "a") (.lit "it's") .absent)
      (.seq (.seq (.var "b") (.seq (.var "c") (.var "d"))) (.equals .absent .absent))) := by
  rfl

end Scaffold.Expr
