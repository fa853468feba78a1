import Scaffold.Proofs.Expr.Reading

namespace Scaffold.Expr

namespace Lexer

lemma isNameChar_brace : isNameChar '}' = false := by decide +kernel

lemma start_brace : start '}' = ⟨[.closeBracket], .ok .blank⟩ := by
  have hb : Text.isBlank '}' = false := by decide
  simp [start, hb, Token.ofChar?]

lemma step_brace {l : Lexer} {t : Option Token} (h : l.finish = .ok t) :
    l.step '}' = ⟨t.toList ++ [.closeBracket], .ok .blank⟩ := by
  cases l with
  | blank => cases h; exact start_brace
  | question | assign => cases h; simp [step, endBefore, start_brace]
  | name cs => cases h; simp [step, endBefore, start_brace, isNameChar_brace]
  | quoted cs | escape cs => cases h

lemma ofChar?_eq_closeBracket {c : Char} (h : Token.ofChar? c = some .closeBracket) : c = '}' := by
  unfold Token.ofChar? at h
  split at h <;> simp_all

lemma start_closeBracket {c : Char} (h : .closeBracket ∈ (start c).tokens) : c = '}' := by
  unfold start at h
  split at h
  · simp at h
  · split at h
    · rename_i t ht
      obtain rfl : .closeBracket = t := by simpa using h
      exact ofChar?_eq_closeBracket ht
    · split_ifs at h <;> simp at h

lemma step_closeBracket {l : Lexer} {c : Char} (h : .closeBracket ∈ (l.step c).tokens) :
    c = '}' := by
  cases l with
  | blank => exact start_closeBracket h
  | question | assign | name =>
    simp only [step] at h
    split at h
    · simp at h
    · exact start_closeBracket (by simpa [endBefore, nameToken] using h)
  | quoted =>
    simp only [step] at h
    split_ifs at h <;> simp at h
  | escape => simp [step] at h

end Lexer

namespace Reader

lemma takeTokens_closeBracket_iff (p : Parser) (ts : List Token) (e : Expr)
    (h : .closeBracket ∉ ts) :
    takeTokens .brace p (ts ++ [.closeBracket]) = .closed e ↔
      ∃ q, p.feed ts = some q ∧ q.result? = some e := by
  induction ts generalizing p with
  | nil =>
    cases hr : p.result? <;> simp [takeTokens, Parser.step, Parser.accept_closeBracket, hr]
  | cons t ts ih =>
    obtain ⟨ht, hts⟩ := not_or.mp (mt List.mem_cons.mpr h)
    cases ha : p.accept t with
    | some p' => simpa [takeTokens, Parser.step, Parser.feed_cons, ha] using ih p' hts
    | none => cases t <;> simp_all [takeTokens, Parser.step, Parser.feed_cons]

lemma feed_brace_eq_closed_iff (r : Reader) (c : Char) (e : Expr) :
    r.feed .brace c = .closed e ↔ c = '}' ∧ r.finish .text = .ok e := by
  rw [feed_eq_closed_iff, finish_text_iff]
  constructor
  · intro h
    obtain ⟨_, us, vs, _, hs, _⟩ := takeTokens_closed h
    obtain rfl : c = '}' := Lexer.step_closeBracket (l := r.lexer) (by simp [hs])
    cases ht : r.lexer.finish with
    | error f => cases hl : r.lexer <;> simp_all [Lexer.finish, Lexer.step]
    | ok t =>
      rw [Lexer.step_brace ht] at h
      obtain ⟨p, hp⟩ := (takeTokens_closeBracket_iff _ _ e (Lexer.finish_closeBracket ht)).mp h
      exact ⟨rfl, t, p, rfl, hp⟩
  · rintro ⟨rfl, t, p, ht, hp⟩
    rw [Lexer.step_brace ht]
    exact (takeTokens_closeBracket_iff _ _ e (Lexer.finish_closeBracket ht)).mpr ⟨p, hp⟩

end Reader

theorem parse_brace_eq_ok_iff (s r : List Char) (e : Expr) :
    parse .brace s = (.ok e, r) ↔ ∃ p : String, s = p.toList ++ '}' :: r ∧ ofText p = .ok e := by
  unfold parse ofText parse
  rw [Reader.run_brace_iff]
  constructor
  · rintro ⟨p, q, c, rfl, hr, hq⟩
    obtain ⟨rfl, hf⟩ := (Reader.feed_brace_eq_closed_iff q c e).mp hq
    exact ⟨String.ofList p, by simp, by simpa using (Reader.run_text_iff _ _ e).mpr ⟨q, hr, hf⟩⟩
  · rintro ⟨p, rfl, hp⟩
    obtain ⟨q, hr, hf⟩ := (Reader.run_text_iff _ _ e).mp hp
    exact ⟨p.toList, q, '}', rfl, hr, (Reader.feed_brace_eq_closed_iff q '}' e).mpr ⟨rfl, hf⟩⟩

end Scaffold.Expr
