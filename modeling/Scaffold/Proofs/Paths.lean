import Scaffold.Proofs.FileSystem.Reaching

namespace Scaffold

lemma pieces_ne_nil (sep : Char) (cs : List Char) : pieces sep cs ≠ [] := by
  cases cs with
  | nil => simp [pieces]
  | cons c cs =>
    rw [pieces]
    split
    · simp
    · split <;> simp

lemma pieces_separator (sep : Char) (cs : List Char) :
    pieces sep (sep :: cs) = [] :: pieces sep cs := by
  obtain ⟨p, ps, hp⟩ := List.exists_cons_of_ne_nil (pieces_ne_nil sep cs)
  rw [pieces, hp]
  exact if_pos rfl

lemma pieces_append {sep : Char} {a : List Char} (h : sep ∉ a) (b : List Char) :
    pieces sep (a ++ sep :: b) = a :: pieces sep b := by
  induction a with
  | nil => exact pieces_separator sep b
  | cons c a ih =>
    obtain ⟨hc, ha⟩ := List.ne_and_not_mem_of_not_mem_cons h
    rw [List.cons_append, pieces, ih ha]
    exact if_neg hc.symm

lemma pieces_intercalate {sep : Char} {l : List (List Char)} (hl : l ≠ [])
    (h : ∀ p ∈ l, sep ∉ p) : pieces sep ([sep].intercalate l) = l := by
  induction l with
  | nil => exact absurd rfl hl
  | cons a l ih =>
    have ha := h a List.mem_cons_self
    cases l with
    | nil =>
      rw [List.intercalate_singleton]
      exact Path.pieces_of_not_mem sep a ha
    | cons b l =>
      rw [List.intercalate_cons_cons, List.append_assoc, List.singleton_append, pieces_append ha,
        ih (by simp) fun p hp => h p (List.mem_cons_of_mem a hp)]

namespace Path

def namesOf (cs : List Char) : List Name :=
  ((pieces '/' cs).map String.ofList).filterMap Name.ofString?

section

variable {p : Path}

lemma ofString_eq (s : String) : ofString s = ⟨anchorOf s.toList, (namesOf s.toList).reverse⟩ :=
  rfl

lemma namesOf_slash (cs : List Char) : namesOf ('/' :: cs) = namesOf cs := by
  rw [namesOf, pieces_separator]
  rfl

lemma namesOf_anchor (a : Anchor) (cs : List Char) :
    namesOf ((anchorText a).toList ++ cs) = namesOf cs := by
  cases a with
  | relative => rfl
  | root => exact namesOf_slash cs
  | doubleRoot => exact (namesOf_slash _).trans (namesOf_slash cs)

lemma steps_eq_nil_iff : p.steps = [] ↔ p.names = [] := by
  rw [steps, List.reverse_eq_nil_iff, List.map_eq_nil_iff]

lemma toList_steps (p : Path) : (String.intercalate "/" p.steps).toList =
    ['/'].intercalate (p.steps.map String.toList) :=
  String.toList_intercalate

lemma namesOf_steps (h : p.names ≠ []) :
    namesOf (String.intercalate "/" p.steps).toList = p.names.reverse := by
  have hslash : ∀ cs ∈ p.steps.map String.toList, '/' ∉ cs := by
    intro cs hcs
    obtain ⟨s, hs, rfl⟩ := List.mem_map.mp hcs
    obtain ⟨n, -, rfl⟩ := List.mem_map.mp (List.mem_reverse.mp hs)
    exact ((isName_iff n.1).mp n.2).2.2
  have hname (n : Name) : Name.ofString? n.1 = some n := by rw [Name.ofString?, dif_pos n.2]
  have hne : p.steps.map String.toList ≠ [] := by
    rw [ne_eq, List.map_eq_nil_iff, steps_eq_nil_iff]
    exact h
  have hback : (p.steps.map String.toList).map String.ofList = p.steps := by
    simp [List.map_map, Function.comp_def]
  have hsome : Name.ofString? ∘ Subtype.val = some := funext hname
  rw [namesOf, toList_steps, pieces_intercalate hne hslash, hback, steps, ← List.map_reverse,
    List.filterMap_map, hsome, List.filterMap_some]

lemma head_steps (h : p.names ≠ []) :
    ∃ c cs, (String.intercalate "/" p.steps).toList = c :: cs ∧ c ≠ '/' := by
  obtain ⟨s, rest, hs⟩ := List.exists_cons_of_ne_nil (mt steps_eq_nil_iff.mp h)
  have hmem : s ∈ p.steps := hs ▸ List.mem_cons_self
  obtain ⟨n, -, rfl⟩ := List.mem_map.mp (List.mem_reverse.mp hmem)
  obtain ⟨hempty, -, hslash⟩ := (isName_iff n.1).mp n.2
  obtain ⟨c, cs, hcs⟩ := List.exists_cons_of_ne_nil (mt String.toList_eq_nil_iff.mp hempty)
  rw [hs, String.toList_intercalate, List.map_cons, hcs]
  have hc : c ≠ '/' := by
    rintro rfl
    exact hslash (hcs ▸ List.mem_cons_self)
  cases rest with
  | nil => exact ⟨c, cs, by simp, hc⟩
  | cons b rest => exact ⟨c, _, by rw [List.map_cons, List.intercalate_cons_cons]; rfl, hc⟩

lemma anchorOf_anchor {c : Char} (hc : c ≠ '/') (a : Anchor) (cs : List Char) :
    anchorOf ((anchorText a).toList ++ c :: cs) = a := by
  cases a with
  | relative => exact anchorOf_of_head_ne (c :: cs) (by simpa using hc)
  | root =>
    have h : anchorOf ('/' :: c :: cs) = .root := by
      unfold anchorOf
      split <;> simp_all
    exact h
  | doubleRoot =>
    have h : anchorOf ('/' :: '/' :: c :: cs) = .doubleRoot := by
      rw [anchorOf, if_neg hc]
    exact h

theorem ofString_text (p : Path) : ofString p.text = p := by
  obtain ⟨a, names⟩ := p
  by_cases hn : names = []
  · subst hn
    cases a <;> decide
  · have hhere : (⟨a, names⟩ : Path) ≠ here := fun h => hn (congrArg Path.names h)
    obtain ⟨c, cs, hcs, hc⟩ := head_steps (p := ⟨a, names⟩) hn
    rw [ofString_eq, text, if_neg hhere, String.toList_append, namesOf_anchor, namesOf_steps hn,
      hcs, anchorOf_anchor hc, List.reverse_reverse]

end

end Path

namespace FileSystem

def workingIn (fs : FileSystem) (D : Location) : FileSystem :=
  { fs with workDir := D }

section

variable {fs : FileSystem} {D : Location} {q : Purpose} {p : Path}

lemma descend_workingIn (jump : Location → List String → Except Refusal Spot) (loc : Location)
    (e : Entry) (a : List String) :
    (fs.workingIn D).descend q jump loc e a = fs.descend q jump loc e a := by
  induction a generalizing loc e with
  | nil => cases e <;> rfl
  | cons n rest ih =>
    cases e with
    | file | link | pipe => rfl
    | directory =>
      rw [descend, descend]
      simp only [ih]
      rfl

lemma walk_workingIn (links : Nat) (loc : Location) (a : List String) :
    (fs.workingIn D).walk q links loc a = fs.walk q links loc a := by
  induction links generalizing loc a with
  | zero => exact descend_workingIn _ loc .directory a
  | succ links ih =>
    have hjump : (fs.workingIn D).walk q links = fs.walk q links :=
      funext fun loc => funext fun a => ih loc a
    simp only [walk, hjump, descend_workingIn]

lemma find_workingIn (h : p.isAbsolute = true ∨ D = fs.workDir) :
    (fs.workingIn D).find q p = fs.find q p := by
  rcases h with h | rfl
  · have hstart : (fs.workingIn D).startOf p = fs.startOf p := by
      rw [startOf, startOf, if_pos h, if_pos h]
    rw [find, find, hstart, walk_workingIn]
    rfl
  · rfl

end

end FileSystem

end Scaffold
