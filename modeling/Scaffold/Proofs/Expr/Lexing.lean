import Scaffold.Proofs.Expr.Reading

namespace Scaffold.Expr

def isIdentifier (s : String) : Bool :=
  match s.toList with
  | [] => false
  | c :: cs => isNameStart c && cs.all isNameChar

lemma isIdentifier_singleton (c : Char) : isIdentifier (String.ofList [c]) = isNameStart c := by
  simp [isIdentifier]

lemma isIdentifier_concat {cs : List Char} {c : Char}
    (h : isIdentifier (String.ofList cs) = true) (hc : isNameChar c = true) :
    isIdentifier (String.ofList (cs ++ [c])) = true := by
  cases cs with
  | nil => simp [isIdentifier] at h
  | cons d ds => simpa [isIdentifier, hc] using h

namespace Token

def isLexical : Token → Bool
  | .ident name => isIdentifier name
  | _ => true

def quoteChar (c : Char) : List Char :=
  if c = '\'' ∨ c = '\\' then ['\\', c] else [c]

def spelling : Token → List Char
  | .literal text => '\'' :: text.toList.flatMap quoteChar ++ ['\'']
  | t => t.text.toList

end Token

namespace Lexer

def consume : Lexer → List Char → Option (List Token × Lexer)
  | l, [] => some ([], l)
  | l, c :: cs =>
    match (l.step c).next with
    | .ok next => (consume next cs).map fun r => ((l.step c).tokens ++ r.1, r.2)
    | .error _ => none

lemma consume_cons {l m : Lexer} {c : Char} {ts : List Token} (h : l.step c = ⟨ts, .ok m⟩)
    (cs : List Char) : l.consume (c :: cs) = (m.consume cs).map fun r => (ts ++ r.1, r.2) := by
  simp [consume, h]

lemma consume_append {l m : Lexer} {a : List Char} {ts : List Token}
    (h : l.consume a = some (ts, m)) (b : List Char) :
    l.consume (a ++ b) = (m.consume b).map fun r => (ts ++ r.1, r.2) := by
  induction a generalizing l ts with
  | nil =>
    cases h
    cases hb : m.consume b <;> simp [hb]
  | cons c cs ih =>
    match hs : l.step c with
    | ⟨us, .error f⟩ => simp [consume, hs] at h
    | ⟨us, .ok next⟩ =>
      rw [consume_cons hs] at h
      obtain ⟨⟨vs, m'⟩, hv, he⟩ := Option.map_eq_some_iff.mp h
      cases he
      rw [List.cons_append, consume_cons hs, ih hv]
      cases m'.consume b <;> simp

set_option maxRecDepth 20000 in
lemma blank_not_letter : ∀ r ∈ Text.blankRanges, ∀ n ∈ List.range' r.1 (r.2 + 1 - r.1),
    Text.letterRanges.contains n = false := by decide +kernel

lemma isBlank_of_isNameStart {c : Char} (h : isNameStart c = true) : Text.isBlank c = false := by
  apply Bool.eq_false_iff.mpr
  intro hb
  obtain ⟨r, hr, hlo, hhi⟩ := Text.Ranges.exists_range_of_contains _ _ hb
  rcases Bool.or_eq_true_iff.mp h with hl | hu
  · have hn := blank_not_letter r hr c.toNat (by rw [List.mem_range'_1]; omega)
    rw [Text.isLetter, hn] at hl
    cases hl
  · rw [of_decide_eq_true hu] at hb
    exact absurd hb (by decide)

lemma start_name {c : Char} (h : isNameStart c = true) : start c = ⟨[], .ok (.name [c])⟩ := by
  have hne : ∀ d, isNameStart d = false → c ≠ d := by
    rintro d hd rfl
    simp [h] at hd
  have ho : Token.ofChar? c = none := by
    unfold Token.ofChar?
    split
    case h_8 => rfl
    all_goals exact absurd h (by decide +kernel)
  have hq := hne '?' (by decide +kernel)
  have ha := hne '=' (by decide +kernel)
  have hs := hne '\'' (by decide +kernel)
  simp [start, isBlank_of_isNameStart h, ho, hq, ha, hs, h]

lemma start_space : start ' ' = ⟨[], .ok .blank⟩ := by
  have hb : Text.isBlank ' ' = true := by decide
  simp [start, hb]

lemma isNameChar_space : isNameChar ' ' = false := by decide +kernel

lemma step_space {l : Lexer} {t : Option Token} (h : l.finish = .ok t) :
    l.step ' ' = ⟨t.toList, .ok .blank⟩ := by
  cases l with
  | blank => cases h; exact start_space
  | question | assign => cases h; simp [step, endBefore, start_space]
  | name cs => cases h; simp [step, endBefore, start_space, isNameChar_space]
  | quoted cs | escape cs => cases h

lemma step_space_of_error {l : Lexer} {f : LexFault} (h : l.finish = .error f) :
    ∃ acc, l.step ' ' = ⟨[], .ok (quoted acc)⟩ := by
  cases l with
  | quoted cs | escape cs => exact ⟨' ' :: cs, rfl⟩
  | _ => cases h

lemma consume_name {acc cs : List Char} (h : cs.all isNameChar = true) :
    (name acc).consume cs = some ([], name (cs.reverse ++ acc)) := by
  induction cs generalizing acc with
  | nil => rfl
  | cons c cs ih =>
    obtain ⟨hc, hcs⟩ := Bool.and_eq_true_iff.mp h
    have hs : (name acc).step c = ⟨[], .ok (name (c :: acc))⟩ := by simp [step, hc]
    simp [consume_cons hs, ih hcs]

lemma consume_quoteChar (acc : List Char) (c : Char) :
    (quoted acc).consume (Token.quoteChar c) = some ([], quoted (c :: acc)) := by
  unfold Token.quoteChar
  split
  · rename_i hc
    rcases hc with rfl | rfl <;> rfl
  · rename_i hc
    obtain ⟨hq, hb⟩ := not_or.mp hc
    have hs : (quoted acc).step c = ⟨[], .ok (quoted (c :: acc))⟩ := by simp [step, hq, hb]
    exact consume_cons hs []

lemma consume_quoted (acc cs : List Char) :
    (quoted acc).consume (cs.flatMap Token.quoteChar) = some ([], quoted (cs.reverse ++ acc)) := by
  induction cs generalizing acc with
  | nil => rfl
  | cons c cs ih => simp [consume_append (consume_quoteChar acc c), ih]

lemma consume_space {l : Lexer} {t : Option Token} (h : l.finish = .ok t) :
    l.consume [' '] = some (t.toList, blank) := by
  simpa [consume] using consume_cons (step_space h) []

lemma consume_closingQuote (acc : List Char) :
    (quoted acc).consume ['\'', ' '] = some ([.literal (String.ofList acc.reverse)], blank) := by
  have hs : (quoted acc).step '\'' = ⟨[.literal (String.ofList acc.reverse)], .ok blank⟩ := rfl
  rw [consume_cons hs, consume_space (t := none) rfl]
  rfl

lemma consume_spelling {t : Token} (h : t.isLexical = true) :
    blank.consume (t.spelling ++ [' ']) = some ([t], blank) := by
  cases t with
  | ident name =>
    unfold Token.isLexical isIdentifier at h
    cases hn : name.toList with
    | nil => simp [hn] at h
    | cons c cs =>
      simp only [hn, Bool.and_eq_true] at h
      have hs : blank.step c = ⟨[], .ok (Lexer.name [c])⟩ := start_name h.1
      have ht : nameToken (cs.reverse ++ [c]) = .ident name := by
        simp [nameToken, ← hn]
      simp only [Token.spelling, Token.text, hn, List.cons_append]
      rw [consume_cons hs, consume_append (consume_name h.2), consume_space (t := some _) rfl, ht]
      rfl
  | literal text =>
    have hs : blank.step '\'' = ⟨[], .ok (quoted [])⟩ := rfl
    simp only [Token.spelling, List.cons_append, List.append_assoc, List.nil_append]
    rw [consume_cons hs, consume_append (consume_quoted [] text.toList), consume_closingQuote]
    simp
  | _ => rfl

lemma consume_spellings {ts : List Token} (h : ∀ t ∈ ts, t.isLexical = true) :
    blank.consume (ts.flatMap fun t => t.spelling ++ [' ']) = some (ts, blank) := by
  induction ts with
  | nil => rfl
  | cons t ts ih =>
    have hts := ih fun u hu => h u (List.mem_cons_of_mem t hu)
    have ht := consume_append (consume_spelling (h t List.mem_cons_self))
      (ts.flatMap fun t => t.spelling ++ [' '])
    rw [List.flatMap_cons, ht, hts]
    rfl

end Lexer

namespace Reader

lemma reach_eq_consume (r : Reader) (cs : List Char) :
    r.reach cs = (r.lexer.consume cs).bind fun out =>
      (r.parser.feed out.1).map fun p => ⟨out.2, p⟩ := by
  induction cs generalizing r with
  | nil => rfl
  | cons c cs ih =>
    match hs : r.lexer.step c with
    | ⟨ts, .error f⟩ => simp [reach_cons, next?, Lexer.consume, hs]
    | ⟨ts, .ok m⟩ =>
      rw [reach_cons, Lexer.consume_cons hs]
      cases hc : m.consume cs with
      | none => cases hp : r.parser.feed ts <;> simp [next?, hs, hp, ih, hc]
      | some out => cases hp : r.parser.feed ts <;> simp [next?, hs, hp, ih, hc, Parser.feed_append]

end Reader

end Scaffold.Expr
