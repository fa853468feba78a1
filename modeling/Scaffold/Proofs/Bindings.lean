import Mathlib.Data.List.Nodup
import Scaffold.Bindings

namespace Scaffold

namespace Bindings

section

variable {α β ε : Type} {k : String} {es ds : List (String × α)} {b : Bindings α}

lemma find_append : find k (es ++ ds) = (find k es).or (find k ds) := by
  induction es with
  | nil => rfl
  | cons e es ih =>
    by_cases h : e.1 = k <;> simp [find, h, ih]

lemma find_eq_none_iff : find k es = none ↔ k ∉ es.map Prod.fst := by
  induction es with
  | nil => simp [find]
  | cons e es ih =>
    by_cases h : e.1 = k
    · simp [find, h]
    · rw [find, if_neg h, ih, List.map_cons, List.mem_cons, not_or]
      exact ⟨fun hes => ⟨Ne.symm h, hes⟩, And.right⟩

lemma find_of_mem {e : String × α} (hn : (es.map Prod.fst).Nodup) (h : e ∈ es) :
    find e.1 es = some e.2 := by
  induction es with
  | nil => cases h
  | cons d es ih =>
    obtain ⟨hd, hes⟩ := List.nodup_cons.mp hn
    rcases List.mem_cons.mp h with rfl | h
    · rw [find, if_pos rfl]
    · have hne : ¬ d.1 = e.1 := fun he => hd (he ▸ List.mem_map_of_mem h)
      rw [find, if_neg hne, ih hes h]

lemma find_map (f : α → β) :
    find k (es.map fun e => (e.1, f e.2)) = (find k es).map f := by
  induction es with
  | nil => rfl
  | cons e es ih =>
    by_cases h : e.1 = k
    · simp [find, h]
    · simpa [find, h] using ih

lemma find_reverse (h : (es.map Prod.fst).Nodup) : find k es.reverse = find k es := by
  induction es with
  | nil => rfl
  | cons e es ih =>
    obtain ⟨he, hes⟩ := List.nodup_cons.mp h
    rw [List.reverse_cons, find_append, ih hes, find, find, find]
    by_cases hk : e.1 = k
    · subst hk
      rw [find_eq_none_iff.mpr he, if_pos rfl]
      rfl
    · rw [if_neg hk, if_neg hk, Option.or_none]

lemma find_reverse_eq_some_iff {a : α} : find k es.reverse = some a ↔
    ∃ former later, es = former ++ (k, a) :: later ∧ k ∉ later.map Prod.fst := by
  constructor
  · intro h
    induction es with
    | nil => cases h
    | cons e es ih =>
      rw [List.reverse_cons, find_append] at h
      cases hes : find k es.reverse with
      | some b =>
        rw [hes] at h
        obtain ⟨former, later, rfl, hk⟩ := ih (hes.trans h)
        exact ⟨e :: former, later, rfl, hk⟩
      | none =>
        rw [hes, Option.none_or, find] at h
        split_ifs at h with he
        · obtain rfl : e = (k, a) := Prod.ext he (Option.some.inj h)
          have hk := find_eq_none_iff.mp hes
          rw [List.map_reverse, List.mem_reverse] at hk
          exact ⟨[], es, rfl, hk⟩
        · cases h
  · rintro ⟨former, later, rfl, hk⟩
    have hlater : find k later.reverse = none := by
      rw [find_eq_none_iff, List.map_reverse, List.mem_reverse]
      exact hk
    rw [List.reverse_append, List.reverse_cons, List.append_assoc, find_append, hlater,
      Option.none_or, List.singleton_append, find, if_pos rfl]

lemma get?_insertAll (b : Bindings α) (es : List (String × α)) (k : String) :
    (b.insertAll es).get? k = (find k es.reverse).or (b.get? k) := by
  induction es generalizing b with
  | nil => rfl
  | cons e es ih =>
    have hcons : b.insertAll (e :: es) = (b.insert e.1 e.2).insertAll es := rfl
    rw [hcons, ih, get?_insert, List.reverse_cons, find_append, Option.or_assoc]
    congr 1
    by_cases hk : k = e.1
    · rw [if_pos hk, find, if_pos hk.symm]
      rfl
    · rw [if_neg hk, find, if_neg (Ne.symm hk)]
      rfl

lemma get?_ofList (es : List (String × α)) (k : String) :
    (ofList es).get? k = find k es.reverse := by
  rw [ofList, get?_insertAll, get?_empty, Option.or_none]

lemma get?_ofList_of_not_mem (h : k ∉ es.map Prod.fst) : (ofList es).get? k = none := by
  rw [get?_ofList, find_eq_none_iff, List.map_reverse, List.mem_reverse]
  exact h

lemma get?_ofList_of_mem (h : k ∈ es.map Prod.fst) : ∃ a, (ofList es).get? k = some a := by
  rw [get?_ofList, ← Option.ne_none_iff_exists', ne_eq, find_eq_none_iff, List.map_reverse,
    List.mem_reverse]
  exact not_not.mpr h

lemma get?_ofList_concat (es : List (String × α)) (j : String) (a : α) (k : String) :
    (ofList (es ++ [(j, a)])).get? k = if k = j then some a else (ofList es).get? k := by
  rw [get?_ofList, get?_ofList, List.reverse_append, List.reverse_singleton,
    List.singleton_append, find]
  by_cases h : j = k
  · rw [if_pos h, if_pos h.symm]
  · rw [if_neg h, if_neg (Ne.symm h)]

lemma get?_merge (base upper : Bindings α) (k : String) :
    (base.merge upper).get? k = (upper.get? k).or (base.get? k) := by
  rw [merge, get?_insertAll, find_reverse upper.nodup]
  rfl

lemma erase_of_get?_none (h : b.get? k = none) : b.erase k = b := by
  have hdrop (es : List (String × α)) (hes : find k es = none) : drop k es = es := by
    induction es with
    | nil => rfl
    | cons e es ih =>
      rw [find] at hes
      by_cases he : e.1 = k
      · rw [if_pos he] at hes
        cases hes
      · rw [if_neg he] at hes
        rw [drop, if_neg he, ih hes]
  obtain ⟨es, hn⟩ := b
  simp only [erase, hdrop es h]

lemma get?_eraseAll (b : Bindings α) (ks : List String) (k : String) :
    (b.eraseAll ks).get? k = if k ∈ ks then none else b.get? k := by
  induction ks generalizing b with
  | nil => rfl
  | cons j ks ih =>
    have hcons : b.eraseAll (j :: ks) = (b.erase j).eraseAll ks := rfl
    rw [hcons, ih, get?_erase]
    by_cases hk : k = j <;> simp [hk]

lemma put_of_not_mem {a : α} (h : k ∉ es.map Prod.fst) : put k a es = es ++ [(k, a)] := by
  induction es with
  | nil => rfl
  | cons e es ih =>
    obtain ⟨he, hes⟩ := not_or.mp (mt List.mem_cons.mpr h)
    rw [put, if_neg (Ne.symm he), ih hes]
    rfl

lemma insertAll_entries (h : ((b.entries ++ es).map Prod.fst).Nodup) :
    (b.insertAll es).entries = b.entries ++ es := by
  induction es generalizing b with
  | nil => exact (List.append_nil _).symm
  | cons e es ih =>
    have hcons : b.insertAll (e :: es) = (b.insert e.1 e.2).insertAll es := rfl
    have hnew : e.1 ∉ b.entries.map Prod.fst := by
      rw [List.map_append, List.map_cons] at h
      exact fun hm => List.disjoint_of_nodup_append h hm List.mem_cons_self
    have hput : (b.insert e.1 e.2).entries = b.entries ++ [e] := put_of_not_mem hnew
    rw [hcons, ih (by simpa [hput] using h), hput, List.append_assoc]
    rfl

lemma ofList_entries (b : Bindings α) : ofList b.entries = b := by
  have heq : ∀ c : Bindings α, c.entries = b.entries → c = b := by
    rintro ⟨es, hn⟩ rfl
    rfl
  exact heq _ (insertAll_entries (b := empty) b.nodup)

lemma find_mapEntries {f : α → Except ε β} {bs : List (String × β)}
    (h : mapEntries f es = .ok bs) (k : String) :
    match find k es with
    | none => find k bs = none
    | some a => ∃ v, f a = .ok v ∧ find k bs = some v := by
  induction es generalizing bs with
  | nil =>
    cases h
    rfl
  | cons e es ih =>
    unfold mapEntries at h
    split at h
    · cases h
    · rename_i v hv
      split at h
      · cases h
      · rename_i bs' hbs
        cases h
        by_cases hk : e.1 = k
        · simpa [find, hk] using hv
        · simpa [find, hk] using ih hbs

lemma exists_of_mapEntries {f : α → Except ε β} {x : ε} (h : mapEntries f es = .error x) :
    ∃ e ∈ es, f e.2 = .error x := by
  induction es with
  | nil => cases h
  | cons e es ih =>
    unfold mapEntries at h
    split at h
    · rename_i hx
      cases h
      exact ⟨e, List.mem_cons_self, hx⟩
    · split at h
      · rename_i hx
        cases h
        obtain ⟨d, hd, hf⟩ := ih hx
        exact ⟨d, List.mem_cons_of_mem e hd, hf⟩
      · cases h

lemma get?_mapM {f : α → Except ε β} {c : Bindings β} (h : b.mapM f = .ok c) (k : String) :
    match b.get? k with
    | none => c.get? k = none
    | some a => ∃ v, f a = .ok v ∧ c.get? k = some v := by
  rw [mapM] at h
  split at h
  · cases h
  · rename_i bs hbs
    cases h
    exact find_mapEntries hbs k

lemma exists_of_mapM {f : α → Except ε β} {x : ε} (h : b.mapM f = .error x) :
    ∃ k a, b.get? k = some a ∧ f a = .error x := by
  rw [mapM] at h
  split at h
  · rename_i y hy
    cases h
    obtain ⟨e, he, hf⟩ := exists_of_mapEntries hy
    exact ⟨e.1, e.2, find_of_mem b.nodup he, hf⟩
  · cases h

end

end Bindings

end Scaffold
