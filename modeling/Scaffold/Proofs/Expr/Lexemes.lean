import Scaffold.Proofs.Expr.Lexing

/-! The lexer finds the tokens into which a text can be cut. Between two lexemes stand blanks only,
and where there are none, the next character does not go on with the lexeme, so that no text can be
cut into two lists of tokens. -/

namespace Scaffold.Expr

namespace Token

def isOperator : Token → Bool
  | .ident _ | .literal _ => false
  | _ => true

inductive Quotes : List Char → List Char → Prop
  | nil : Quotes [] []
  | plain {c : Char} {body text : List Char} : c ≠ '\'' → c ≠ '\\' → Quotes body text →
      Quotes (c :: body) (c :: text)
  | escaped {c : Char} {body text : List Char} : Quotes body text →
      Quotes ('\\' :: c :: body) (unescape c :: text)

inductive Spells : List Char → Token → Prop
  | operator {t : Token} : t.isOperator = true → Spells t.text.toList t
  | ident {name : String} : isIdentifier name = true → Spells name.toList (.ident name)
  | literal {body : List Char} {text : String} : Quotes body text.toList →
      Spells ('\'' :: body ++ ['\'']) (.literal text)

def isExtendedBy : Token → Char → Bool
  | .ident _, c => isNameChar c
  | .question, c => c = '?'
  | .assign, c => c = '='
  | _, _ => false

lemma spells_operator {t : Token} {lexeme : List Char} (ht : t.isOperator = true)
    (hl : t.text.toList = lexeme) : Spells lexeme t :=
  hl ▸ .operator ht

lemma Quotes.append {a b s t : List Char} (ha : Quotes a s) (hb : Quotes b t) :
    Quotes (a ++ b) (s ++ t) := by
  induction ha with
  | nil => exact hb
  | plain hq hs _ ih => exact .plain hq hs ih
  | escaped _ ih => exact .escaped ih

set_option maxRecDepth 20000 in
lemma blank_not_numeral : ∀ r ∈ Text.blankRanges, ∀ n ∈ List.range' r.1 (r.2 + 1 - r.1),
    Text.numeralRanges.contains n = false := by decide +kernel

lemma isNameChar_of_isBlank {c : Char} (h : Text.isBlank c = true) : isNameChar c = false := by
  have hstart : isNameStart c = false := by
    apply Bool.eq_false_iff.mpr
    intro hs
    rw [Lexer.isBlank_of_isNameStart hs] at h
    cases h
  obtain ⟨r, hr, hlo, hhi⟩ := Text.Ranges.exists_range_of_contains _ _ h
  have hnumeral := blank_not_numeral r hr c.toNat (by rw [List.mem_range'_1]; omega)
  rw [isNameStart, Bool.or_eq_false_iff] at hstart
  rw [isNameChar, hstart.1, hstart.2, Text.isNumeral, hnumeral]
  rfl

lemma isExtendedBy_blank {c : Char} (h : Text.isBlank c = true) (t : Token) :
    t.isExtendedBy c = false := by
  cases t with
  | ident name => exact isNameChar_of_isBlank h
  | question | assign =>
    apply Bool.eq_false_iff.mpr
    intro hc
    rw [of_decide_eq_true hc] at h
    exact absurd h (by decide)
  | _ => rfl

end Token

def AllBlank (cs : List Char) : Prop :=
  ∀ c ∈ cs, Text.isBlank c = true

inductive Lexemes : List Char → List Token → Prop
  | nil : Lexemes [] []
  | cons {lexeme gap rest : List Char} {t : Token} {ts : List Token} : t.Spells lexeme →
      AllBlank gap → (gap = [] → ∀ c ∈ rest.head?, t.isExtendedBy c = false) → Lexemes rest ts →
      Lexemes (lexeme ++ gap ++ rest) (t :: ts)

def CutsInto (cs : List Char) (ts : List Token) : Prop :=
  ∃ gap rest, cs = gap ++ rest ∧ AllBlank gap ∧ Lexemes rest ts

section

variable {cs lexeme gap : List Char} {t : Token} {ts : List Token} {c : Char}

lemma cutsInto_nil : CutsInto [] [] := ⟨[], [], rfl, by simp [AllBlank], .nil⟩

lemma CutsInto.blank (hc : Text.isBlank c = true) (h : CutsInto cs ts) : CutsInto (c :: cs) ts := by
  obtain ⟨gap, rest, rfl, hgap, hrest⟩ := h
  refine ⟨c :: gap, rest, rfl, fun d hd => ?_, hrest⟩
  rcases List.mem_cons.mp hd with rfl | hd
  · exact hc
  · exact hgap d hd

lemma CutsInto.cons (ht : t.Spells lexeme) (hc : ∀ c ∈ cs.head?, t.isExtendedBy c = false)
    (h : CutsInto cs ts) : CutsInto (lexeme ++ cs) (t :: ts) := by
  obtain ⟨gap, rest, rfl, hgap, hrest⟩ := h
  refine ⟨[], lexeme ++ (gap ++ rest), rfl, by simp [AllBlank], ?_⟩
  rw [← List.append_assoc]
  exact .cons ht hgap (fun hnil => by simpa [hnil] using hc) hrest

end

namespace Lexer

def tokensFrom (l : Lexer) (cs : List Char) : Except LexFault (List Token) :=
  match (lexFrom l cs).fault with
  | some f => .error f
  | none => .ok ((lexFrom l cs).tokens.map Prod.fst)

section

variable {l m : Lexer} {c : Char} {t : Token} {ts : List Token}

lemma tokensFrom_nil (l : Lexer) : l.tokensFrom [] = l.finish.map Option.toList := by
  rw [tokensFrom, lexFrom]
  cases l.finish with
  | error f => rfl
  | ok t => cases t <;> rfl

lemma tokensFrom_cons (h : l.step c = ⟨ts, .ok m⟩) (cs : List Char) :
    l.tokensFrom (c :: cs) = (m.tokensFrom cs).map (ts ++ ·) := by
  rw [tokensFrom, lexFrom, h, tokensFrom]
  simp only [Lexed.push]
  cases (lexFrom m cs).fault with
  | some f => rfl
  | none => simp [Except.map, Function.comp_def]

lemma tokensFrom_fault {f : LexFault} (h : l.step c = ⟨ts, .error f⟩) (cs : List Char) :
    l.tokensFrom (c :: cs) = .error f := by
  rw [tokensFrom, lexFrom, h]

lemma tokensFrom_append {a : List Char} (h : l.consume a = some (ts, m)) (cs : List Char) :
    l.tokensFrom (a ++ cs) = (m.tokensFrom cs).map (ts ++ ·) := by
  induction a generalizing l ts with
  | nil =>
    cases h
    cases hm : m.tokensFrom cs <;> simp [Except.map, hm]
  | cons d a ih =>
    match hs : l.step d with
    | ⟨us, .error f⟩ => simp [consume, hs] at h
    | ⟨us, .ok next⟩ =>
      rw [consume_cons hs] at h
      obtain ⟨⟨vs, m'⟩, hv, he⟩ := Option.map_eq_some_iff.mp h
      cases he
      rw [List.cons_append, tokensFrom_cons hs, ih hv]
      cases m'.tokensFrom cs <;> simp [Except.map]

inductive Begun : Lexer → List Char → Prop
  | blank : Begun .blank []
  | question : Begun .question ['?']
  | assign : Begun .assign ['=']
  | name {letters : List Char} : isIdentifier (String.ofList letters.reverse) = true →
      Begun (.name letters) letters.reverse
  | quoted {text body : List Char} : Token.Quotes body text.reverse →
      Begun (.quoted text) ('\'' :: body)
  | escape {text body : List Char} : Token.Quotes body text.reverse →
      Begun (.escape text) ('\'' :: body ++ ['\\'])

lemma Begun.spells {p : List Char} (h : l.Begun p) (ht : l.finish = .ok (some t)) : t.Spells p := by
  cases h with
  | blank | quoted | escape => cases ht
  | question | assign =>
    cases ht
    exact Token.spells_operator rfl rfl
  | name hname =>
    cases ht
    simpa [nameToken] using Token.Spells.ident hname

lemma start_cases (c : Char) :
    Text.isBlank c = true ∧ start c = ⟨[], .ok .blank⟩ ∨
    (∃ t : Token, t.Spells [c] ∧ (∀ d, t.isExtendedBy d = false) ∧ start c = ⟨[t], .ok .blank⟩) ∨
    (∃ m : Lexer, m.Begun [c] ∧ start c = ⟨[], .ok m⟩) ∨
    ∃ f, start c = ⟨[], .error f⟩ := by
  by_cases hb : Text.isBlank c = true
  · exact .inl ⟨hb, by rw [start, if_pos hb]⟩
  refine .inr ?_
  rw [start, if_neg hb]
  cases ht : Token.ofChar? c with
  | some t =>
    refine .inl ⟨t, ?_, ?_, rfl⟩
    · unfold Token.ofChar? at ht
      split at ht <;> cases ht <;> exact Token.spells_operator rfl rfl
    · unfold Token.ofChar? at ht
      split at ht <;> cases ht <;> exact fun _ => rfl
  | none =>
    refine .inr ?_
    dsimp only
    split_ifs with hquestion hassign hquote hname
    · subst hquestion
      exact .inl ⟨_, .question, rfl⟩
    · subst hassign
      exact .inl ⟨_, .assign, rfl⟩
    · subst hquote
      have hm : Begun (.quoted []) ['\''] := .quoted .nil
      exact .inl ⟨_, hm, rfl⟩
    · have hm : Begun (.name [c]) [c] := .name ((isIdentifier_singleton c).trans hname)
      exact .inl ⟨_, hm, rfl⟩
    · exact .inr ⟨_, rfl⟩

lemma step_of_not_extended (h : l.finish = .ok (some t)) (hc : t.isExtendedBy c = false) :
    l.step c = endBefore t c := by
  cases l with
  | blank | quoted | escape => cases h
  | question | assign =>
    cases h
    exact if_neg (of_decide_eq_false hc)
  | name letters =>
    cases h
    exact if_neg (Bool.eq_false_iff.mp hc)

lemma tokensFrom_pending {cs : List Char} (h : l.finish = .ok (some t))
    (hc : ∀ c ∈ cs.head?, t.isExtendedBy c = false) :
    l.tokensFrom cs = (blank.tokensFrom cs).map (t :: ·) := by
  cases cs with
  | nil =>
    rw [tokensFrom_nil, tokensFrom_nil, h]
    rfl
  | cons c cs =>
    have hs : l.step c = ⟨t :: (start c).tokens, (start c).next⟩ :=
      step_of_not_extended h (hc c rfl)
    match hstart : start c with
    | ⟨us, .ok m⟩ =>
      rw [hstart] at hs
      rw [tokensFrom_cons hs, tokensFrom_cons (l := blank) hstart]
      cases m.tokensFrom cs <;> rfl
    | ⟨us, .error f⟩ =>
      rw [hstart] at hs
      rw [tokensFrom_fault hs, tokensFrom_fault (l := blank) hstart]
      rfl

lemma consume_gap {gap : List Char} (h : AllBlank gap) :
    blank.consume gap = some ([], blank) := by
  induction gap with
  | nil => rfl
  | cons c gap ih =>
    have hs : blank.step c = ⟨[], .ok blank⟩ := by
      rw [step, start, if_pos (h c List.mem_cons_self)]
    rw [consume_cons hs, ih fun d hd => h d (List.mem_cons_of_mem c hd)]
    rfl

lemma consume_quotes {body text : List Char} (h : Token.Quotes body text) (acc : List Char) :
    (quoted acc).consume body = some ([], quoted (text.reverse ++ acc)) := by
  induction h generalizing acc with
  | nil => rfl
  | plain hq hb _ ih =>
    rename_i c body text _
    have hs : (quoted acc).step c = ⟨[], .ok (quoted (c :: acc))⟩ := by simp [step, hq, hb]
    simp [consume_cons hs, ih]
  | escaped _ ih =>
    rename_i c body text _
    have hs : (quoted acc).step '\\' = ⟨[], .ok (Lexer.escape acc)⟩ := rfl
    have hc : (Lexer.escape acc).step c = ⟨[], .ok (quoted (unescape c :: acc))⟩ := rfl
    simp [consume_cons hs, consume_cons hc, ih]

lemma consume_lexeme {lexeme : List Char} (h : t.Spells lexeme) :
    blank.consume lexeme = some ([t], blank) ∨
      ∃ m : Lexer, blank.consume lexeme = some ([], m) ∧ m.finish = .ok (some t) := by
  cases h with
  | operator ht =>
    cases t with
    | ident | literal => cases ht
    | question => exact .inr ⟨question, rfl, rfl⟩
    | assign => exact .inr ⟨assign, rfl, rfl⟩
    | _ => exact .inl rfl
  | @ident name hname =>
    unfold isIdentifier at hname
    cases hn : name.toList with
    | nil => simp [hn] at hname
    | cons c cs =>
      simp only [hn, Bool.and_eq_true] at hname
      have hs : blank.step c = ⟨[], .ok (Lexer.name [c])⟩ := start_name hname.1
      refine .inr ⟨Lexer.name (cs.reverse ++ [c]), ?_, ?_⟩
      · simp [consume_cons hs, consume_name hname.2]
      · simp [finish, nameToken, ← hn]
  | @literal body text hbody =>
    have hs : blank.step '\'' = ⟨[], .ok (quoted [])⟩ := rfl
    have hend : (quoted (text.toList.reverse ++ [])).step '\'' = ⟨[.literal text], .ok blank⟩ := by
      simp [step]
    refine .inl ?_
    rw [List.cons_append, consume_cons hs, consume_append (consume_quotes hbody []),
      consume_cons hend]
    rfl

lemma tokensFrom_lexeme {lexeme cs : List Char} (h : t.Spells lexeme)
    (hc : ∀ c ∈ cs.head?, t.isExtendedBy c = false) :
    blank.tokensFrom (lexeme ++ cs) = (blank.tokensFrom cs).map (t :: ·) := by
  rcases consume_lexeme h with hl | ⟨m, hl, hm⟩
  · rw [tokensFrom_append hl]
    rfl
  · rw [tokensFrom_append hl, tokensFrom_pending hm hc]
    cases blank.tokensFrom cs <;> rfl

lemma tokensFrom_lexemes {cs : List Char} (h : Lexemes cs ts) : blank.tokensFrom cs = .ok ts := by
  induction h with
  | nil => rfl
  | @cons lexeme gap rest t ts ht hgap hext _ ih =>
    have hc : ∀ c ∈ (gap ++ rest).head?, t.isExtendedBy c = false := by
      cases gap with
      | nil => exact hext rfl
      | cons g gap =>
        rintro c ⟨⟩
        exact Token.isExtendedBy_blank (hgap _ List.mem_cons_self) t
    rw [List.append_assoc, tokensFrom_lexeme ht hc, tokensFrom_append (consume_gap hgap), ih]
    rfl

lemma tokensFrom_cons_eq_ok {cs : List Char} {us : List Token} (hs : l.step c = ⟨us, .ok m⟩)
    (h : l.tokensFrom (c :: cs) = .ok ts) : ∃ vs, m.tokensFrom cs = .ok vs ∧ ts = us ++ vs := by
  rw [tokensFrom_cons hs] at h
  cases hm : m.tokensFrom cs with
  | error f =>
    rw [hm] at h
    cases h
  | ok vs =>
    rw [hm] at h
    exact ⟨vs, rfl, (Except.ok.inj h).symm⟩

def Completes (cs : List Char) : Prop :=
  ∀ (l : Lexer) (p : List Char) (ts : List Token), l.Begun p → l.tokensFrom cs = .ok ts →
    CutsInto (p ++ cs) ts

lemma completes_nil : Completes [] := by
  intro l p ts hp h
  rw [tokensFrom_nil] at h
  cases hl : l.finish with
  | error f =>
    rw [hl] at h
    cases h
  | ok t =>
    rw [hl] at h
    obtain rfl := Except.ok.inj h
    cases t with
    | some t => exact cutsInto_nil.cons (hp.spells hl) (by simp)
    | none =>
      cases hp with
      | blank => exact cutsInto_nil
      | _ => cases hl

section

variable {p cs : List Char} (h : Completes cs)

include h

lemma Completes.start (hts : blank.tokensFrom (c :: cs) = .ok ts) : CutsInto (c :: cs) ts := by
  rcases start_cases c with ⟨hb, hs⟩ | ⟨t, ht, hext, hs⟩ | ⟨m, hm, hs⟩ | ⟨f, hs⟩
  · obtain ⟨us, hus, rfl⟩ := tokensFrom_cons_eq_ok (l := blank) hs hts
    exact (h blank [] _ .blank hus).blank hb
  · obtain ⟨us, hus, rfl⟩ := tokensFrom_cons_eq_ok (l := blank) hs hts
    exact (h blank [] _ .blank hus).cons ht fun d _ => hext d
  · obtain ⟨us, hus, rfl⟩ := tokensFrom_cons_eq_ok (l := blank) hs hts
    exact h m [c] _ hm hus
  · rw [tokensFrom_fault (l := blank) hs] at hts
    cases hts

lemma Completes.pending (hp : l.Begun p) (hl : l.finish = .ok (some t))
    (hc : t.isExtendedBy c = false) (hts : l.tokensFrom (c :: cs) = .ok ts) :
    CutsInto (p ++ c :: cs) ts := by
  have hhead : ∀ d ∈ (c :: cs).head?, t.isExtendedBy d = false := by
    rintro d ⟨⟩
    exact hc
  rw [tokensFrom_pending hl hhead] at hts
  cases hb : blank.tokensFrom (c :: cs) with
  | error f =>
    rw [hb] at hts
    cases hts
  | ok us =>
    rw [hb] at hts
    obtain rfl := Except.ok.inj hts
    exact (h.start hb).cons (hp.spells hl) hhead

lemma Completes.pair (hs : l.step c = ⟨[t], .ok .blank⟩) (ht : t.Spells (p ++ [c]))
    (hext : ∀ d, t.isExtendedBy d = false) (hts : l.tokensFrom (c :: cs) = .ok ts) :
    CutsInto (p ++ c :: cs) ts := by
  obtain ⟨us, hus, rfl⟩ := tokensFrom_cons_eq_ok hs hts
  have hcut := (h blank [] _ .blank hus).cons ht fun d _ => hext d
  rwa [List.append_assoc] at hcut

lemma Completes.further (hs : l.step c = ⟨[], .ok m⟩) (hm : m.Begun (p ++ [c]))
    (hts : l.tokensFrom (c :: cs) = .ok ts) : CutsInto (p ++ c :: cs) ts := by
  obtain ⟨us, hus, rfl⟩ := tokensFrom_cons_eq_ok hs hts
  have hcut := h m (p ++ [c]) _ hm hus
  rwa [List.append_assoc] at hcut

lemma Completes.cons (c : Char) : Completes (c :: cs) := by
  intro l p ts hp hts
  cases hp with
  | blank => exact h.start hts
  | question =>
    by_cases hc : c = '?'
    · subst hc
      have hs : question.step '?' = ⟨[.nullCheck], .ok .blank⟩ := rfl
      exact h.pair hs (Token.spells_operator rfl rfl) (fun _ => rfl) hts
    · exact h.pending .question rfl (decide_eq_false hc) hts
  | assign =>
    by_cases hc : c = '='
    · subst hc
      have hs : assign.step '=' = ⟨[.equals], .ok .blank⟩ := rfl
      exact h.pair hs (Token.spells_operator rfl rfl) (fun _ => rfl) hts
    · exact h.pending .assign rfl (decide_eq_false hc) hts
  | @name letters hname =>
    by_cases hc : isNameChar c = true
    · have hs : (Lexer.name letters).step c = ⟨[], .ok (.name (c :: letters))⟩ := if_pos hc
      have hm : Begun (.name (c :: letters)) (letters.reverse ++ [c]) := by
        rw [← List.reverse_cons]
        apply Begun.name
        rw [List.reverse_cons]
        exact isIdentifier_concat hname hc
      exact h.further hs hm hts
    · exact h.pending (.name hname) rfl (Bool.eq_false_iff.mpr hc) hts
  | @quoted text body hbody =>
    by_cases hquote : c = '\''
    · subst hquote
      have hs : (Lexer.quoted text).step '\'' =
          ⟨[.literal (String.ofList text.reverse)], .ok .blank⟩ := rfl
      refine h.pair hs ?_ (fun _ => rfl) hts
      exact .literal (by simpa using hbody)
    by_cases hslash : c = '\\'
    · subst hslash
      have hs : (Lexer.quoted text).step '\\' = ⟨[], .ok (.escape text)⟩ := rfl
      exact h.further hs (.escape hbody) hts
    · have hs : (Lexer.quoted text).step c = ⟨[], .ok (.quoted (c :: text))⟩ := by
        simp [step, hquote, hslash]
      have hplain : Token.Quotes (body ++ [c]) (c :: text).reverse := by
        rw [List.reverse_cons]
        exact hbody.append (.plain hquote hslash .nil)
      exact h.further hs (.quoted hplain) hts
  | @escape text body hbody =>
    have hs : (Lexer.escape text).step c = ⟨[], .ok (.quoted (unescape c :: text))⟩ := rfl
    have hescaped : Token.Quotes (body ++ ['\\', c]) (unescape c :: text).reverse := by
      rw [List.reverse_cons]
      exact hbody.append (.escaped .nil)
    refine h.further hs ?_ hts
    simpa using Begun.quoted hescaped

end

lemma completes (cs : List Char) : Completes cs := by
  induction cs with
  | nil => exact completes_nil
  | cons c cs ih => exact ih.cons c

lemma tokensFrom_of_cutsInto {cs : List Char} (h : CutsInto cs ts) :
    blank.tokensFrom cs = .ok ts := by
  obtain ⟨gap, rest, rfl, hgap, hrest⟩ := h
  rw [tokensFrom_append (consume_gap hgap), tokensFrom_lexemes hrest]
  rfl

end

end Lexer

theorem tokenize_eq_ok_iff (cs : List Char) :
    (∀ ts, tokenize cs = .ok ts ↔ CutsInto cs ts) ∧
    ((∀ ts, ¬ CutsInto cs ts) → ∃ f, tokenize cs = .error f) := by
  have hiff (ts : List Token) : tokenize cs = .ok ts ↔ CutsInto cs ts :=
    ⟨Lexer.completes cs .blank [] ts .blank, Lexer.tokensFrom_of_cutsInto⟩
  refine ⟨hiff, fun hno => ?_⟩
  cases h : tokenize cs with
  | error f => exact ⟨f, rfl⟩
  | ok ts => exact absurd ((hiff ts).mp h) (hno ts)

end Scaffold.Expr
