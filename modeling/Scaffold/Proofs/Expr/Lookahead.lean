import Scaffold.Proofs.Expr.Verbatim
import Scaffold.Text.CharSource

/-! Marked text from a source that gives one character after the other and takes one back. What
comes of it is what comes of the characters as a list. -/

namespace Scaffold

namespace Text.CharSource

variable {s s' : CharSource} {c : Char}

lemma remaining_of_next (h : s.next = (some c, s')) :
    s.remaining = c :: s'.remaining ∧ s'.pending = none := by
  obtain ⟨_ | p, _ | ⟨d, cs⟩⟩ := s <;> cases h <;> exact ⟨rfl, rfl⟩

lemma remaining_of_next_none (h : s.next = (none, s')) : s.remaining = [] ∧ s'.remaining = [] := by
  obtain ⟨_ | p, _ | ⟨d, cs⟩⟩ := s <;> cases h
  exact ⟨rfl, rfl⟩

lemma remaining_pushBack_of_next (h : s.next = (some c, s')) (d : Char) :
    (s'.pushBack d).remaining = d :: s'.remaining := by
  rw [remaining_pushBack, remaining, (remaining_of_next h).2]

end Text.CharSource

namespace Expr

open Text

def Reader.runFrom (ending : Ending) (r : Reader) (s : CharSource) :
    Except SyntaxFault Expr × CharSource :=
  match _hs : s.next with
  | (none, s') => (r.finish ending, s')
  | (some c, s') =>
    match r.feed ending c with
    | .more q => runFrom ending q s'
    | .closed e => (.ok e, s')
    | .failed f => (.error f, s')
termination_by s.remaining.length
decreasing_by
  rw [(CharSource.remaining_of_next _hs).1]
  exact Nat.lt_succ_self _

section

variable {ending : Ending} {s s' : CharSource} {c : Char}

lemma Reader.runFrom_of_next (r : Reader) (h : s.next = (some c, s')) :
    r.runFrom ending s = match r.feed ending c with
      | .more q => q.runFrom ending s'
      | .closed e => (.ok e, s')
      | .failed f => (.error f, s') := by
  rw [runFrom]
  split
  · rename_i hs
    cases h.symm.trans hs
  · rename_i hs
    cases h.symm.trans hs
    rfl

lemma Reader.runFrom_of_end (r : Reader) (h : s.next = (none, s')) :
    r.runFrom ending s = (r.finish ending, s') := by
  rw [runFrom]
  split
  · rename_i hs
    cases h.symm.trans hs
    rfl
  · rename_i hs
    cases h.symm.trans hs

lemma Reader.runFrom_eq (ending : Ending) (r : Reader) (s : CharSource) :
    (r.runFrom ending s).1 = (r.run ending s.remaining).1 ∧
      (r.runFrom ending s).2.remaining = (r.run ending s.remaining).2 := by
  generalize hcs : s.remaining = cs
  induction cs generalizing r s with
  | nil =>
    rcases hs : s.next with ⟨_ | c, s'⟩
    · rw [r.runFrom_of_end hs, run]
      exact ⟨rfl, (CharSource.remaining_of_next_none hs).2⟩
    · cases hcs.symm.trans (CharSource.remaining_of_next hs).1
  | cons c cs ih =>
    rcases hs : s.next with ⟨_ | d, s'⟩
    · cases hcs.symm.trans (CharSource.remaining_of_next_none hs).1
    · obtain ⟨rfl, hrest⟩ := List.cons.inj (hcs.symm.trans (CharSource.remaining_of_next hs).1)
      rw [r.runFrom_of_next hs, run]
      cases r.feed ending c with
      | more q => exact ih q s' hrest.symm
      | closed e | failed f => exact ⟨rfl, hrest.symm⟩

lemma Reader.length_run_le (ending : Ending) (r : Reader) (cs : List Char) :
    (r.run ending cs).2.length ≤ cs.length := by
  induction cs generalizing r with
  | nil => exact Nat.le_refl _
  | cons c cs ih =>
    rw [run]
    cases r.feed ending c with
    | more q => exact Nat.le_succ_of_le (ih q)
    | closed e | failed f => exact Nat.le_succ _

end

/-- The segments of a text, from a source. A character behind a `$` that opens no marker is put
back, and so is the first one of a marker. -/
def segmentsOf (s : CharSource) : List Segment :=
  match _hs : s.next with
  | (none, _) => []
  | (some c, s₁) =>
    if c ≠ '$' then .char c :: segmentsOf s₁
    else match _hs₁ : s₁.next with
      | (none, _) => [.char '$']
      | (some d, s₂) =>
        if d ≠ '{' then .char '$' :: segmentsOf (s₂.pushBack d)
        else match _hs₂ : s₂.next with
          | (none, _) => [.char '$', .char '{']
          | (some a, s₃) =>
            match _hs₃ : Reader.start.runFrom .brace (s₃.pushBack a) with
            | (.ok e, s₄) => .expr e :: segmentsOf s₄
            | (.error f, _) => [.fault f]
termination_by s.remaining.length
decreasing_by
  · rw [(CharSource.remaining_of_next _hs).1, List.length_cons]
    omega
  · rw [CharSource.remaining_pushBack_of_next _hs₁, (CharSource.remaining_of_next _hs).1,
      (CharSource.remaining_of_next _hs₁).1, List.length_cons, List.length_cons, List.length_cons]
    omega
  · have hrest := (Reader.runFrom_eq .brace .start (s₃.pushBack a)).2
    have hle := Reader.start.length_run_le .brace (s₃.pushBack a).remaining
    rw [← hrest, _hs₃, CharSource.remaining_pushBack_of_next _hs₂, List.length_cons] at hle
    rw [(CharSource.remaining_of_next _hs).1, (CharSource.remaining_of_next _hs₁).1,
      (CharSource.remaining_of_next _hs₂).1, List.length_cons, List.length_cons, List.length_cons]
    exact Nat.lt_of_le_of_lt hle (by omega)

lemma segments_char {c : Char} (hc : c ≠ '$') (cs : List Char) :
    segments (c :: cs) = .char c :: segments cs := by
  simp [segments, segmentsFrom, Scanner.step, hc]

lemma segments_dollar {d : Char} (hd : d ≠ '{') (cs : List Char) :
    segments ('$' :: d :: cs) = .char '$' :: segments (d :: cs) := by
  by_cases hdollar : d = '$' <;> simp [segments, segmentsFrom, Scanner.step, hd, hdollar]

theorem segmentsOf_eq (s : CharSource) : segmentsOf s = segments s.remaining := by
  fun_induction segmentsOf s with
  | case1 s s' hs =>
    rw [(CharSource.remaining_of_next_none hs).1]
    rfl
  | case2 s c s₁ hs hc ih => rw [(CharSource.remaining_of_next hs).1, segments_char hc, ih]
  | case3 s c s₁ hs hc s₂ hs₁ =>
    obtain rfl := not_ne_iff.mp hc
    rw [(CharSource.remaining_of_next hs).1, (CharSource.remaining_of_next_none hs₁).1]
    rfl
  | case4 s c s₁ hs hc d s₂ hs₁ hd ih =>
    obtain rfl := not_ne_iff.mp hc
    rw [(CharSource.remaining_of_next hs).1, (CharSource.remaining_of_next hs₁).1,
      segments_dollar hd, ih, CharSource.remaining_pushBack_of_next hs₁]
  | case5 s c s₁ hs hc d s₂ hs₁ hd s₃ hs₂ =>
    obtain rfl := not_ne_iff.mp hc
    obtain rfl := not_ne_iff.mp hd
    rw [(CharSource.remaining_of_next hs).1, (CharSource.remaining_of_next hs₁).1,
      (CharSource.remaining_of_next_none hs₂).1]
    rfl
  | case6 s c s₁ hs hc d s₂ hs₁ hd a s₃ hs₂ e s₄ hs₃ ih =>
    obtain rfl := not_ne_iff.mp hc
    obtain rfl := not_ne_iff.mp hd
    have hparse := Reader.runFrom_eq .brace .start (s₃.pushBack a)
    rw [hs₃, CharSource.remaining_pushBack_of_next hs₂] at hparse
    have hrun : Reader.start.run .brace (a :: s₃.remaining) = (.ok e, s₄.remaining) :=
      Prod.ext hparse.1.symm hparse.2.symm
    rw [(CharSource.remaining_of_next hs).1, (CharSource.remaining_of_next hs₁).1,
      (CharSource.remaining_of_next hs₂).1, segments_marker, ih, parse, hrun]
  | case7 s c s₁ hs hc d s₂ hs₁ hd a s₃ hs₂ f s₄ hs₃ =>
    obtain rfl := not_ne_iff.mp hc
    obtain rfl := not_ne_iff.mp hd
    have hparse := Reader.runFrom_eq .brace .start (s₃.pushBack a)
    rw [hs₃, CharSource.remaining_pushBack_of_next hs₂] at hparse
    have hrun : Reader.start.run .brace (a :: s₃.remaining) = (.error f, s₄.remaining) :=
      Prod.ext hparse.1.symm hparse.2.symm
    rw [(CharSource.remaining_of_next hs).1, (CharSource.remaining_of_next hs₁).1,
      (CharSource.remaining_of_next hs₂).1, segments_marker, parse, hrun]

end Expr

end Scaffold
