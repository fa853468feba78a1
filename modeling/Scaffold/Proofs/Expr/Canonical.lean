import Scaffold.Proofs.Expr.Sources

namespace Scaffold

def Defines.names : Defines → List String
  | .nil => []
  | .cons n _ rest => n :: rest.names

namespace Expr

mutual

def isCanonical : Expr → Bool
  | .absent | .lit _ => true
  | .var name => isIdentifier name
  | .seq a b => a ≠ .absent && b ≠ .absent && a.isCanonical && b.isCanonical
  | .equals l r => l.isCanonical && r.isCanonical
  | .cond t s f => t.isCanonical && s.isCanonical && f.isCanonical
  | .orElse p f => p.isCanonical && f.isCanonical
  | .call function file define undefine =>
    isIdentifier function && file.isCanonical && definesCanonical define &&
      decide define.names.Nodup && undefine.all isIdentifier

def definesCanonical : Defines → Bool
  | .nil => true
  | .cons n v rest => isIdentifier n && v.isCanonical && definesCanonical rest

end

lemma append_canonical {a b : Expr} (ha : a.isCanonical = true) (hb : b.isCanonical = true) :
    (a.append b).isCanonical = true := by
  cases a <;> cases b <;> simp_all [append, isCanonical]

lemma names_set (d : Defines) (n : String) (v : Expr) (x : String) :
    x ∈ (d.set n v).names ↔ x = n ∨ x ∈ d.names := by
  cases d with
  | nil => simp [Defines.set, Defines.names]
  | cons m w rest =>
    by_cases hm : m = n
    · simp [Defines.set, Defines.names, hm]
    · have ih := names_set rest n v x
      simp only [Defines.set, hm, if_false, Defines.names, List.mem_cons, ih]
      exact or_left_comm

lemma nodup_set {d : Defines} (h : d.names.Nodup) (n : String) (v : Expr) :
    (d.set n v).names.Nodup := by
  cases d with
  | nil => simp [Defines.set, Defines.names]
  | cons m w rest =>
    obtain ⟨hm, hr⟩ := List.nodup_cons.mp h
    by_cases hn : m = n
    · simpa [Defines.set, Defines.names, hn] using h
    · rw [Defines.set, if_neg hn]
      simp only [Defines.names, List.nodup_cons, names_set, not_or]
      exact ⟨⟨hn, hm⟩, nodup_set hr n v⟩

lemma set_canonical {d : Defines} {n : String} {v : Expr} (hd : definesCanonical d = true)
    (hn : isIdentifier n = true) (hv : v.isCanonical = true) :
    definesCanonical (d.set n v) = true := by
  cases d with
  | nil => simp [Defines.set, definesCanonical, hn, hv]
  | cons m w rest =>
    simp only [definesCanonical, Bool.and_eq_true] at hd
    by_cases hm : m = n
    · simp [Defines.set, definesCanonical, hm, hn, hv, hd.2]
    · simp [Defines.set, definesCanonical, hm, hd.1, set_canonical hd.2 hn hv]

lemma closed_canonical :
    Closed (fun name => isIdentifier name = true) fun e => e.isCanonical = true where
  absent := rfl
  var h := h
  lit _ := rfl
  append := append_canonical
  equals hl hr := by simp [isCanonical, hl, hr]
  cond ht hs hf := by simp [isCanonical, ht, hs, hf]
  orElse hp hf := by simp [isCanonical, hp, hf]
  call h hf := by simp [OpenCall.close, isCanonical, h, hf, definesCanonical, Defines.names]
  set hc hn hv := by
    simp only [OpenCall.close, isCanonical, Bool.and_eq_true, decide_eq_true_eq] at hc
    simp [OpenCall.close, OpenCall.set, isCanonical, hc.1.1.1, set_canonical hc.1.1.2 hn hv,
      nodup_set hc.1.2, hc.2]
  unset hc hn := by
    simp only [OpenCall.close, isCanonical, Bool.and_eq_true, decide_eq_true_eq] at hc
    simp [OpenCall.close, OpenCall.unset, isCanonical, hc.1, hc.2, hn]

lemma canonical_of_ofText {s : String} {e : Expr} (h : ofText s = .ok e) : e.isCanonical = true :=
  closed_canonical.of_ofText h fun _ hn _ => hn

end Expr

end Scaffold
