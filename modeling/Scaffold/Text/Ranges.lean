namespace Scaffold.Text

abbrev Ranges := List (Nat × Nat)

namespace Ranges

def contains : Ranges → Nat → Bool
  | [], _ => false
  | (lo, hi) :: rs, n => lo ≤ n && (n ≤ hi || contains rs n)

theorem exists_range_of_contains (rs : Ranges) (n : Nat) (h : rs.contains n = true) :
    ∃ r ∈ rs, r.1 ≤ n ∧ n ≤ r.2 := by
  induction rs with
  | nil => simp [contains] at h
  | cons r rs ih =>
    simp only [contains, Bool.and_eq_true, Bool.or_eq_true, decide_eq_true_eq] at h
    obtain ⟨hl, hr | hr⟩ := h
    · exact ⟨r, List.mem_cons_self, hl, hr⟩
    · obtain ⟨s, hs, hb⟩ := ih hr
      exact ⟨s, List.mem_cons_of_mem _ hs, hb⟩

end Ranges

end Scaffold.Text
