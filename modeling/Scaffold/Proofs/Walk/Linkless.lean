import Scaffold.Proofs.Walk.Structural

namespace Scaffold

mutual

def Tree.Linkless : Tree → Prop
  | .directory f => f.Linkless
  | .link _ => False
  | _ => True

def Forest.Linkless : Forest → Prop
  | .nil => True
  | .cons _ t rest => t.Linkless ∧ rest.Linkless

end

lemma Forest.Linkless.find? {f : Forest} (h : f.Linkless) {k : String} {t : Tree}
    (ht : f.find? k = some t) : t.Linkless := by
  cases f with
  | nil => cases ht
  | cons n u rest =>
    by_cases hk : n.1 = k
    · rw [Forest.find?, if_pos hk] at ht
      exact Option.some.inj ht ▸ h.1
    · rw [Forest.find?, if_neg hk] at ht
      exact Forest.Linkless.find? h.2 ht

lemma Tree.Linkless.entryAt_ne {t : Tree} (h : t.Linkless) (ks : List String) (target : String) :
    t.entryAt ks ≠ some (.link target) := by
  induction ks generalizing t with
  | nil =>
    rw [Tree.entryAt_nil]
    cases t with
    | link => exact h.elim
    | file | directory | pipe => exact nofun
  | cons k ks ih =>
    cases t with
    | file | link | pipe => exact nofun
    | directory f =>
      intro hk
      obtain ⟨u, hu, hlink⟩ := Option.bind_eq_some_iff.mp hk
      exact ih (Forest.Linkless.find? h hu) hlink

namespace Walk

def Stays {α : Type} (r : Except Stop α) (good : α → Prop) : Prop :=
  match r with
  | .ok a => good a
  | .error stop => stop = .failure

lemma check_stays (p : Pair) : Stays p.check fun _ => True := by
  rw [Pair.check]
  split_ifs
  · trivial
  · rfl

lemma overLeaf_stays (old : Option Tree) : Stays (overLeaf old) fun _ => True := by
  rcases old with _ | (_ | _ | _ | _) <;> simp [Stays, overLeaf]

lemma naming_stays (fs : FileSystem) (ctx : Context) (n : Name) (rule : Option FileRule) :
    Stays (naming fs ctx n rule) fun _ => True := by
  cases rule with
  | none => trivial
  | some rule =>
    rw [naming]
    by_cases ha : rule.action = .ignore
    · rw [if_pos ha]
      trivial
    by_cases ht : rule.name = ""
    · rw [if_neg ha, if_pos ht]
      trivial
    rw [if_neg ha, if_neg ht]
    cases Expr.expandString fs ctx rule.name with
    | error e => rfl
    | ok s =>
      by_cases hs : s = ""
      · simp only [hs, if_true]
        trivial
      simp only [hs, if_false]
      cases Name.ofString? s with
      | none => rfl
      | some k => by_cases he : isEntryName s = true <;> simp [Stays, he]

lemma decision_stays (m : Manifest) (ctx : Context) (root : Path) (fs : FileSystem) (n : Name)
    (above : List Name) : Stays (decision m ctx root fs n above) fun _ => True := by
  rw [decision]
  split_ifs
  · rfl
  · trivial
  · exact naming_stays fs ctx n _

lemma filled_stays (fs : FileSystem) (ctx : Context) (bytes : ByteArray) :
    Stays (filled fs ctx bytes) fun _ => True := by
  rw [filled]
  cases FileAction.expandBytes fs ctx bytes with
  | error e => rfl
  | ok text => trivial

end Walk

end Scaffold
