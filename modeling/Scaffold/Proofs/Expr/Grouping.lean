import Scaffold.Proofs.Expr.Absence
import Scaffold.Proofs.Expr.Sources

namespace Scaffold.Expr

namespace Rendering

def also (r s : Rendering Bool) : Rendering Bool := do
  let p ← r
  let q ← s
  pure (p || q)

def otherwise (r s : Rendering Bool) : Rendering Bool := do
  let t ← r.capture
  if t.2 then
    write t.1
    pure true
  else s

variable {r s t : Rendering Bool}

lemma also_assoc (r s t : Rendering Bool) : (r.also s).also t = r.also (s.also t) := by
  simp only [also, bind_then_assoc, pure_then, Bool.or_assoc]

lemma absent_also (r : Rendering Bool) : also (pure false) r = r := by
  simp only [also, pure_then, Bool.false_or]
  exact bind_pure r

lemma also_absent (r : Rendering Bool) : r.also (pure false) = r := by
  simp only [also, pure_then, Bool.or_false]
  exact bind_pure r

lemma otherwise_of_present (cs : List Char) (s : Rendering Bool) :
    otherwise ⟨cs, .ok true⟩ s = ⟨cs, .ok true⟩ := by
  rw [otherwise, capture_of_ok rfl, pure_then, if_pos rfl, write_then_present]

lemma otherwise_of_absent (cs : List Char) (s : Rendering Bool) :
    otherwise ⟨cs, .ok false⟩ s = s := by
  rw [otherwise, capture_of_ok rfl, pure_then]
  rfl

lemma otherwise_assoc (r s t : Rendering Bool) :
    (r.otherwise s).otherwise t = r.otherwise (s.otherwise t) := by
  obtain ⟨cs, e | p⟩ := r
  · rfl
  · cases p with
    | true => rw [otherwise_of_present, otherwise_of_present, otherwise_of_present]
    | false => rw [otherwise_of_absent, otherwise_of_absent]

end Rendering

section

variable {fs : FileSystem} {expand : Expander} {ctx : Context} {e f : Expr}

lemma evaluate_append (e f : Expr) : evaluate fs expand ctx (e.append f) =
    (evaluate fs expand ctx e).also (evaluate fs expand ctx f) := by
  cases f with
  | absent => rw [append_absent, evaluate, Rendering.also_absent]
  | _ =>
    cases e with
    | absent => rw [absent_append, evaluate, Rendering.absent_also]
    | _ => rfl

lemma evaluate_orElse (e f : Expr) : evaluate fs expand ctx (.orElse e f) =
    (evaluate fs expand ctx e).otherwise (evaluate fs expand ctx f) := by
  rw [evaluate]
  rfl

end

def group (s : String) : String :=
  "(" ++ s ++ ")"

def groupTokens (ts : List Token) : List Token :=
  .openParen :: (ts ++ [.closeParen])

section

variable {a b : List Char} {ts us vs : List Token} {e f g : Expr} {s t u : String}

lemma CutsInto.operator {t : Token} (ht : t.isOperator = true) (hl : t.text.toList = a)
    (hext : ∀ c, t.isExtendedBy c = false) (h : CutsInto b us) : CutsInto (a ++ b) (t :: us) :=
  h.cons (Token.spells_operator ht hl) fun c _ => hext c

lemma CutsInto.space (h : CutsInto b us) : CutsInto (' ' :: b) us :=
  h.blank (by decide)

lemma CutsInto.group (hs : tokenize s.toList = .ok ts) (hb : CutsInto b us) :
    CutsInto ((group s).toList ++ b) (groupTokens ts ++ us) := by
  have hclose : CutsInto (')' :: b) (.closeParen :: us) :=
    hb.operator (a := [')']) rfl rfl fun _ => rfl
  have hinner : CutsInto (s.toList ++ ')' :: b) (ts ++ .closeParen :: us) := by
    refine (cutsInto_of_tokenize hs).append ?_ hclose
    rintro c ⟨⟩
    exact Token.isExtendedBy_closeParen
  have hopen : CutsInto ('(' :: (s.toList ++ ')' :: b)) (.openParen :: (ts ++ .closeParen :: us)) :=
    hinner.operator (a := ['(']) rfl rfl fun _ => rfl
  simpa [Expr.group, groupTokens] using hopen

lemma tokenize_group (hs : tokenize s.toList = .ok ts) :
    tokenize (group s).toList = .ok (groupTokens ts) := by
  apply tokenize_of_cutsInto
  simpa using CutsInto.group hs cutsInto_nil

lemma tokenize_groups (hs : tokenize s.toList = .ok ts) (ht : tokenize t.toList = .ok us) :
    tokenize (group s ++ " " ++ group t).toList = .ok (groupTokens ts ++ groupTokens us) := by
  apply tokenize_of_cutsInto
  simpa using CutsInto.group hs (cutsInto_of_tokenize (tokenize_group ht)).space

lemma tokenize_fallback (hs : tokenize s.toList = .ok ts) (ht : tokenize t.toList = .ok us) :
    tokenize (group s ++ " ?? " ++ group t).toList =
      .ok (groupTokens ts ++ .nullCheck :: groupTokens us) := by
  have hcheck : CutsInto ('?' :: '?' :: ' ' :: (group t).toList) (.nullCheck :: groupTokens us) :=
    (cutsInto_of_tokenize (tokenize_group ht)).space.operator (a := ['?', '?']) rfl rfl
      fun _ => rfl
  apply tokenize_of_cutsInto
  simpa using CutsInto.group hs hcheck.space

lemma feed_start_group (h : parseTokens .text ts = .ok e) :
    Parser.start.feed (groupTokens ts) = some ⟨.terms ⟨[], [], e⟩, []⟩ := by
  rw [← Level.start_add]
  exact Parser.feed_group h (.start []) []

lemma ofText_group (hs : ofText s = .ok e) : ofText (group s) = .ok e := by
  obtain ⟨ts, hts, hp⟩ := ofText_eq_ok_iff.mp hs
  have hparsed := Parser.parseTokens_of_feed (feed_start_group hp)
  exact ofText_eq_ok_iff.mpr ⟨_, tokenize_group hts, hparsed⟩

lemma ofText_groups (hs : ofText s = .ok e) (ht : ofText t = .ok f) :
    ofText (group s ++ " " ++ group t) = .ok (e.append f) := by
  obtain ⟨ts, hts, hp⟩ := ofText_eq_ok_iff.mp hs
  obtain ⟨us, hus, hq⟩ := ofText_eq_ok_iff.mp ht
  refine ofText_eq_ok_iff.mpr ⟨_, tokenize_groups hts hus, ?_⟩
  refine Parser.parseTokens_of_feed (l := ⟨[], [], e.append f⟩) ?_
  rw [Parser.feed_append, feed_start_group hp]
  exact Parser.feed_group hq ⟨[], [], e⟩ []

lemma ofText_row (hs : ofText s = .ok e) (ht : ofText t = .ok f) (hu : ofText u = .ok g) :
    ofText (group s ++ " " ++ group t ++ " " ++ group u) = .ok ((e.append f).append g) := by
  obtain ⟨ts, hts, hp⟩ := ofText_eq_ok_iff.mp hs
  obtain ⟨us, hus, hq⟩ := ofText_eq_ok_iff.mp ht
  obtain ⟨vs, hvs, hr⟩ := ofText_eq_ok_iff.mp hu
  have htokens : tokenize (group s ++ " " ++ group t ++ " " ++ group u).toList =
      .ok (groupTokens ts ++ (groupTokens us ++ groupTokens vs)) := by
    apply tokenize_of_cutsInto
    simpa using CutsInto.group hts (cutsInto_of_tokenize (tokenize_groups hus hvs)).space
  refine ofText_eq_ok_iff.mpr ⟨_, htokens, ?_⟩
  refine Parser.parseTokens_of_feed (l := ⟨[], [], (e.append f).append g⟩) ?_
  rw [Parser.feed_append, feed_start_group hp, Option.bind_some, Parser.feed_append, groupTokens,
    Parser.feed_group hq]
  exact Parser.feed_group hr ⟨[], [], e.append f⟩ []

lemma ofText_fallback (hs : ofText s = .ok e) (ht : ofText t = .ok f) :
    ofText (group s ++ " ?? " ++ group t) = .ok (.orElse e f) := by
  obtain ⟨ts, hts, hp⟩ := ofText_eq_ok_iff.mp hs
  obtain ⟨us, hus, hq⟩ := ofText_eq_ok_iff.mp ht
  refine ofText_eq_ok_iff.mpr ⟨_, tokenize_fallback hts hus, ?_⟩
  refine Parser.parseTokens_of_feed (l := ⟨[.fallback e], [], f⟩) ?_
  have hcheck : Parser.accept ⟨.terms ⟨[], [], e⟩, []⟩ .nullCheck =
      some ⟨.terms (.start [.fallback e]), []⟩ := rfl
  rw [Parser.feed_append, feed_start_group hp, Option.bind_some, Parser.feed_cons, hcheck,
    Option.bind_some, ← Level.start_add]
  exact Parser.feed_group hq (.start [.fallback e]) []

end

theorem render_regrouped (fs : FileSystem) (ctx : Context) (x y z : String)
    (a b c : Rendering Bool) (hx : renderText fs ctx x = .ok a) (hy : renderText fs ctx y = .ok b)
    (hz : renderText fs ctx z = .ok c) :
    (renderText fs ctx (group x ++ " " ++ group y ++ " " ++ group z) = .ok ((a.also b).also c) ∧
      renderText fs ctx (group (group x ++ " " ++ group y) ++ " " ++ group z) =
        .ok ((a.also b).also c) ∧
      renderText fs ctx (group x ++ " " ++ group (group y ++ " " ++ group z)) =
        .ok ((a.also b).also c)) ∧
    (renderText fs ctx (group (group x ++ " ?? " ++ group y) ++ " ?? " ++ group z) =
        .ok ((a.otherwise b).otherwise c) ∧
      renderText fs ctx (group x ++ " ?? " ++ group (group y ++ " ?? " ++ group z)) =
        .ok ((a.otherwise b).otherwise c)) ∧
    renderText fs ctx (group "" ++ " " ++ group x) = .ok a ∧
    renderText fs ctx (group x ++ " " ++ group "") = .ok a ∧
    renderText fs ctx (group x) = .ok a := by
  obtain ⟨e, he, rfl⟩ := renderText_eq_ok_iff.mp hx
  obtain ⟨f, hf, rfl⟩ := renderText_eq_ok_iff.mp hy
  obtain ⟨g, hg, rfl⟩ := renderText_eq_ok_iff.mp hz
  have hempty : ofText "" = .ok .absent := rfl
  simp only [renderText_eq_ok_iff]
  refine ⟨⟨⟨_, ofText_row he hf hg, ?_⟩, ⟨_, ofText_groups (ofText_groups he hf) hg, ?_⟩,
    ⟨_, ofText_groups he (ofText_groups hf hg), ?_⟩⟩,
    ⟨⟨_, ofText_fallback (ofText_fallback he hf) hg, ?_⟩,
    ⟨_, ofText_fallback he (ofText_fallback hf hg), ?_⟩⟩, ⟨_, ofText_groups hempty he, ?_⟩,
    ⟨_, ofText_groups he hempty, ?_⟩, ⟨_, ofText_group he, rfl⟩⟩
  · simp only [render, evaluate_append]
  · simp only [render, evaluate_append]
  · simp only [render, evaluate_append, Rendering.also_assoc]
  · simp only [render, evaluate_orElse]
  · simp only [render, evaluate_orElse, Rendering.otherwise_assoc]
  · rw [absent_append]
  · rw [append_absent]

theorem render_regrouped_failing :
    renderText .empty ⟨∅, .here⟩ (group (group "n ?? 'a'" ++ " " ++ group "m == m") ++ " " ++
        group "#f('t')") = .ok ⟨['a'], .error (.unknownFunction "f")⟩ ∧
    renderText .empty ⟨∅, .here⟩ (group "n ?? 'a'" ++ " " ++ group (group "m == m" ++ " " ++
        group "#f('t')")) = .ok ⟨['a'], .error (.unknownFunction "f")⟩ := by
  have h := render_regrouped .empty ⟨∅, .here⟩ "n ?? 'a'" "m == m" "#f('t')" ⟨['a'], .ok true⟩
    ⟨[], .ok true⟩ ⟨[], .error (.unknownFunction "f")⟩ rfl rfl rfl
  exact ⟨h.1.2.1, h.1.2.2⟩

end Scaffold.Expr
