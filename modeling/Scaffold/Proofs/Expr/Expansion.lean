import Mathlib.Data.List.Basic
import Scaffold.Expr.Evaluate
import Scaffold.Proofs.Expr.Reading

namespace Scaffold.Expr

namespace Rendering

variable {α β γ : Type}

lemma bind_eq (r : Rendering α) (f : α → Rendering β) :
    r >>= f = match r.result with
      | .error e => ⟨r.text, .error e⟩
      | .ok a => ⟨r.text ++ (f a).text, (f a).result⟩ := rfl

lemma bind_of_ok {r : Rendering α} {a : α} (h : r.result = .ok a) (f : α → Rendering β) :
    r >>= f = ⟨r.text ++ (f a).text, (f a).result⟩ := by
  rw [bind_eq, h]

lemma bind_of_error {r : Rendering α} {e : Failure} (h : r.result = .error e)
    (f : α → Rendering β) : r >>= f = ⟨r.text, .error e⟩ := by
  rw [bind_eq, h]

lemma bind_then_assoc (r : Rendering α) (f : α → Rendering β) (g : β → Rendering γ) :
    (r >>= f) >>= g = r >>= fun a => f a >>= g :=
  bind_assoc r f g

lemma pure_then (a : α) (f : α → Rendering β) : (pure a : Rendering α) >>= f = f a :=
  pure_bind a f

lemma result_bind_eq_ok {r : Rendering α} {f : α → Rendering β} {b : β}
    (h : (r >>= f).result = .ok b) : ∃ a, r.result = .ok a ∧ (f a).result = .ok b := by
  rw [bind_eq] at h
  cases hr : r.result with
  | error e => simp [hr] at h
  | ok a => exact ⟨a, rfl, by simpa [hr] using h⟩

end Rendering

namespace Scanner

def scan : Scanner → List Char → List Segment × Option Scanner
  | s, [] => ([], some s)
  | s, c :: cs =>
    match s.step c with
    | (out, some next) => (out ++ (scan next cs).1, (scan next cs).2)
    | (out, none) => (out, none)

lemma segmentsFrom_append {s t : Scanner} {a : List Char} (h : (s.scan a).2 = some t)
    (b : List Char) : segmentsFrom s (a ++ b) = (s.scan a).1 ++ segmentsFrom t b := by
  induction a generalizing s with
  | nil => cases h; rfl
  | cons c cs ih =>
    match hc : s.step c with
    | (out, some next) =>
      simp only [scan, hc] at h
      simp [segmentsFrom, scan, hc, ih h]
    | (out, none) => simp [scan, hc] at h

lemma step_fault {s : Scanner} {c : Char} (h : (s.step c).2 = none) :
    ∃ f, .fault f ∈ (s.step c).1 := by
  have hp : ∀ p : Progress, (afterFeed p).2 = none → ∃ f, .fault f ∈ (afterFeed p).1 := by
    intro p hp
    cases p with
    | more r | closed e => cases hp
    | failed f => exact ⟨f, List.mem_singleton_self _⟩
  cases s with
  | text => simp only [step] at h; split_ifs at h
  | dollar => simp only [step] at h; split_ifs at h
  | brace | marker r => exact hp _ h

lemma scan_fault {s : Scanner} {a : List Char} (h : (s.scan a).2 = none) :
    ∃ f, .fault f ∈ segmentsFrom s a := by
  induction a generalizing s with
  | nil => cases h
  | cons c cs ih =>
    match hc : s.step c with
    | (out, some next) =>
      simp only [scan, hc] at h
      obtain ⟨f, hf⟩ := ih h
      exact ⟨f, by simp [segmentsFrom, hc, hf]⟩
    | (out, none) =>
      obtain ⟨f, hf⟩ := step_fault (congrArg Prod.snd hc)
      exact ⟨f, by simpa [segmentsFrom, hc] using hf⟩

lemma scan_concat {s t : Scanner} {a : List Char} {c : Char} (h : (s.scan (a ++ [c])).2 = some t) :
    ∃ u, (s.scan a).2 = some u ∧ (u.step c).2 = some t := by
  induction a generalizing s with
  | nil =>
    refine ⟨s, rfl, ?_⟩
    match hc : s.step c with
    | (out, some next) => simpa [scan, hc] using h
    | (out, none) => simp [scan, hc] at h
  | cons d ds ih =>
    match hd : s.step d with
    | (out, some next) =>
      simp only [List.cons_append, scan, hd] at h
      simpa only [scan, hd] using ih h
    | (out, none) => simp [scan, hd] at h

lemma afterFeed_next {p : Progress} {t : Scanner} (h : (afterFeed p).2 = some t) :
    t = .text ∨ ∃ r, t = .marker r := by
  cases p with
  | more r => exact .inr ⟨r, (Option.some.inj h).symm⟩
  | closed e => exact .inl (Option.some.inj h).symm
  | failed f => cases h

lemma step_dollar {s : Scanner} {c : Char} (h : (s.step c).2 = some .dollar) : c = '$' := by
  cases s with
  | text =>
    simp only [step] at h
    split_ifs at h with hc
    · exact hc
    · cases h
  | dollar =>
    simp only [step] at h
    split_ifs at h with _ hc
    · cases h
    · exact hc
    · cases h
  | brace | marker r => simpa using afterFeed_next h

lemma step_brace {s : Scanner} {c : Char} (h : (s.step c).2 = some .brace) :
    s = .dollar ∧ c = '{' := by
  cases s with
  | text => simp only [step] at h; split_ifs at h <;> cases h
  | dollar =>
    simp only [step] at h
    split_ifs at h with hc
    · exact ⟨rfl, hc⟩
    · cases h
    · cases h
  | brace | marker r => simpa using afterFeed_next h

lemma scan_dollar {a : List Char} (h : (text.scan a).2 = some .dollar) : ['$'] <:+ a := by
  obtain rfl | ⟨b, c, rfl⟩ := a.eq_nil_or_concat'
  · cases h
  · obtain ⟨u, -, hu⟩ := scan_concat h
    exact ⟨b, by rw [step_dollar hu]⟩

lemma scan_brace {a : List Char} (h : (text.scan a).2 = some .brace) : ['$', '{'] <:+ a := by
  obtain rfl | ⟨b, c, rfl⟩ := a.eq_nil_or_concat'
  · cases h
  · obtain ⟨u, hb, hu⟩ := scan_concat h
    obtain ⟨rfl, rfl⟩ := step_brace hu
    obtain ⟨d, rfl⟩ := scan_dollar hb
    exact ⟨d, by simp⟩

end Scanner

section

variable (eval : Expr → Rendering Bool)

lemma expandSegments_append (a b : List Segment) :
    expandSegments eval (a ++ b) = expandSegments eval a >>= fun _ => expandSegments eval b := by
  induction a with
  | nil => exact (Rendering.pure_then () fun _ => expandSegments eval b).symm
  | cons s ss ih =>
    cases s with
    | char c => simp only [List.cons_append, expandSegments, ih, Rendering.bind_then_assoc]
    | expr e => simp only [List.cons_append, expandSegments, ih, Rendering.bind_then_assoc]
    | fault f => rfl

lemma expandSegments_fault {ss : List Segment} {f : SyntaxFault} (h : .fault f ∈ ss) :
    (expandSegments eval ss).result ≠ .ok () := by
  induction ss with
  | nil => cases h
  | cons s ss ih =>
    intro hr
    cases s with
    | char c | expr e =>
      obtain ⟨_, _, hs⟩ := Rendering.result_bind_eq_ok hr
      exact ih (by simpa using h) hs
    | fault g => cases hr

lemma scan_of_expanded {a : List Char} (h : (expandSegments eval (segments a)).result = .ok ())
    (hd : ¬ ['$'] <:+ a) (hb : ¬ ['$', '{'] <:+ a) :
    (Scanner.text.scan a).2 = some .text ∧ (Scanner.text.scan a).1 = segments a := by
  cases hs : (Scanner.text.scan a).2 with
  | none =>
    obtain ⟨f, hf⟩ := Scanner.scan_fault hs
    exact absurd h (expandSegments_fault eval hf)
  | some t =>
    have hsegs : segments a = (Scanner.text.scan a).1 ++ t.finish := by
      simpa [segments, segmentsFrom] using Scanner.segmentsFrom_append hs []
    cases t with
    | text => exact ⟨rfl, by simpa [Scanner.finish] using hsegs.symm⟩
    | dollar => exact absurd (Scanner.scan_dollar hs) hd
    | brace => exact absurd (Scanner.scan_brace hs) hb
    | marker r =>
      cases hr : r.finish .brace with
      | ok e => exact absurd hr (r.finish_brace e)
      | error f =>
        have hf : .fault f ∈ segments a := by simp [hsegs, Scanner.finish, hr]
        exact absurd h (expandSegments_fault eval hf)

end

lemma expand_eq (fs : FileSystem) (ctx : Context) (cs : List Char) :
    expand fs ctx cs = expandSegments
      (evaluate fs (expandAt fs (fs.entries.size + 299)) ctx) (segments cs) := rfl

/-- A text behind one that is expanded without failure is expanded as if it stood alone, also if it
fails. The first text must not end in what could begin a marker. -/
theorem expand_append (fs : FileSystem) (ctx : Context) (a b written : List Char)
    (h : expand fs ctx a = ⟨written, .ok ()⟩) (hd : ¬ ['$'] <:+ a) (hb : ¬ ['$', '{'] <:+ a) :
    expand fs ctx (a ++ b) =
      ⟨written ++ (expand fs ctx b).text, (expand fs ctx b).result⟩ := by
  rw [expand_eq] at h
  obtain ⟨ht, hs⟩ := scan_of_expanded _ (congrArg Rendering.result h) hd hb
  have happ : segments (a ++ b) = segments a ++ segments b := by
    rw [← hs]
    exact Scanner.segmentsFrom_append ht b
  rw [expand_eq, happ, expandSegments_append, h]
  exact Rendering.bind_of_ok rfl _

theorem expand_append_fallback :
    expand .empty ⟨∅, .here⟩ ("$\x7bn ?? 'a'\x7d".toList ++ "b$\x7b#c('d')\x7d".toList) =
      ⟨['a', 'b'], .error (.unknownFunction "c")⟩ :=
  expand_append .empty ⟨∅, .here⟩ _ _ ['a'] rfl (by decide) (by decide)

end Scaffold.Expr
