import Scaffold.Proofs.FileSystem.Reaching

namespace Scaffold

lemma intercalate_le_concat (l : List String) (n : String) :
    (String.intercalate "/" l).utf8ByteSize ≤ (String.intercalate "/" (l ++ [n])).utf8ByteSize := by
  induction l with
  | nil => simp
  | cons a l ih =>
    cases l with
    | nil =>
      rw [String.intercalate_singleton, List.singleton_append, String.intercalate_cons_cons,
        String.utf8ByteSize_append, String.utf8ByteSize_append]
      omega
    | cons b l =>
      rw [List.cons_append] at ih
      rw [List.cons_append, List.cons_append, String.intercalate_cons_cons,
        String.intercalate_cons_cons]
      simp only [String.utf8ByteSize_append]
      omega

lemma Path.byteLength_le_child (p : Path) (n : Name) : p.byteLength ≤ (p.child n).byteLength := by
  have hsteps : (p.child n).steps = p.steps ++ [n.1] := by simp [steps, child]
  have hchild : (p.child n).text =
      anchorText p.anchor ++ String.intercalate "/" (p.steps ++ [n.1]) := by
    rw [text, if_neg (by simp [here, child]), hsteps]
    rfl
  rw [byteLength, byteLength, hchild, String.utf8ByteSize_append]
  by_cases hp : p = here
  · have hn : 1 ≤ n.1.utf8ByteSize := Nat.one_le_iff_ne_zero.mpr fun hz =>
      ((isName_iff n.1).mp n.2).1 (String.utf8ByteSize_eq_zero_iff.mp hz)
    subst hp
    exact Nat.le_trans hn (by simp [steps, here, anchorText])
  · rw [text, if_neg hp, String.utf8ByteSize_append]
    exact Nat.add_le_add_left (intercalate_le_concat p.steps n.1) _

def Purpose.Sees (q : Purpose) (e : Entry) : Prop :=
  q = .entry ∨ q = .target ∧ ∀ target, e ≠ .link target

namespace FileSystem

def lost? : Except Refusal Spot → Option Refusal
  | .error r => some r
  | .ok (.vacant _) => some .noEntry
  | .ok (.there _ _) => none

section

variable {fs fs' : FileSystem} {q : Purpose} {loc l : Location} {n : String} {a b : List String}
  {d e : Entry} {r : Refusal} {jump jump' : Location → List String → Except Refusal Spot}

lemma descend_lost (hb : b ≠ []) (hs : b ≠ [""])
    (hj : ∀ loc a r, lost? (jump loc a) = some r → jump' loc (a ++ b) = .error r)
    (hd : lost? (fs.descend .target jump loc d a) = some r) :
    fs.descend q jump' loc d (a ++ b) = .error r := by
  induction a generalizing loc d with
  | nil => cases d <;> cases hd
  | cons n rest ih =>
    cases d with
    | file | link | pipe => exact congrArg Except.error (Option.some.inj hd)
    | directory =>
      rw [List.cons_append]
      cases hturn : turn loc n with
      | some loc' =>
        rw [descend_turn hturn] at hd ⊢
        exact ih hd
      | none =>
        have hw : ¬ (q = .writing ∧ rest ++ b = [""]) := by
          rintro ⟨-, hr⟩
          rcases List.append_eq_singleton_iff.mp hr with ⟨-, hr⟩ | ⟨-, hr⟩
          · exact hs hr
          · exact hb hr
        by_cases hsize : n.utf8ByteSize ≤ nameLimit
        · rw [descend_name hturn (by simp) hsize, enter] at hd
          rw [descend_name hturn hw hsize, enter]
          cases hn : fs.get? (n :: loc) with
          | none =>
            rw [hn] at hd
            obtain rfl : Refusal.noEntry = r := by
              by_cases hr : rest = [] <;> simpa [hr, lost?] using hd
            simp [hb]
          | some c =>
            rw [hn] at hd
            cases c with
            | link target =>
              have he : ¬ (rest ++ b = [] ∧ q = .entry) := fun h =>
                hb (List.append_eq_nil_iff.mp h.1).2
              simp only [reduceCtorEq, and_false, if_false] at hd
              simp only [he, if_false, ← List.append_assoc]
              exact hj _ _ _ hd
            | file | directory | pipe => exact ih hd
        · obtain ⟨hempty, hdot, hup⟩ := turn_eq_none_iff.mp hturn
          have hlong := Nat.not_le.mp hsize
          rw [descend, if_neg (not_or.mpr ⟨hempty, hdot⟩), if_neg hup, if_neg (by simp),
            if_pos hlong] at hd
          rw [descend, if_neg (not_or.mpr ⟨hempty, hdot⟩), if_neg hup, if_neg hw, if_pos hlong]
          exact congrArg Except.error (Option.some.inj hd)

lemma walk_lost (hb : b ≠ []) (hs : b ≠ [""]) {links : Nat}
    (hw : lost? (fs.walk .target links loc a) = some r) :
    fs.walk q links loc (a ++ b) = .error r := by
  induction links generalizing a loc r with
  | zero =>
    apply descend_lost hb hs (fun _ _ r hj => ?_) hw
    exact congrArg Except.error (Option.some.inj (hj : some Refusal.tooManyLinks = some r))
  | succ links ih => exact descend_lost hb hs (fun _ _ _ hj => ih hj) hw

lemma descend_sees (h : fs.Extends fs') (hq : q.Sees e)
    (hj : ∀ loc a, jump loc a = .ok (.there l e) → jump' loc a = .ok (.there l e))
    (hd : fs.descend .entry jump loc d a = .ok (.there l e)) :
    fs'.descend q jump' loc d a = .ok (.there l e) := by
  have hwriting (rest : List String) : ¬ (q = .writing ∧ rest = [""]) := by
    rintro ⟨rfl, -⟩
    rcases hq with hq | ⟨hq, -⟩ <;> cases hq
  induction a generalizing loc d with
  | nil => cases d <;> exact hd
  | cons n rest ih =>
    cases d with
    | file | link | pipe => cases hd
    | directory =>
      cases hturn : turn loc n with
      | some loc' =>
        rw [descend_turn hturn] at hd ⊢
        exact ih hd
      | none =>
        obtain ⟨hsize, hd⟩ := descend_name_eq_ok hturn hd
        rw [descend_name hturn (hwriting rest) hsize, enter]
        rw [enter] at hd
        cases hn : fs.get? (n :: loc) with
        | none =>
          rw [hn] at hd
          by_cases hr : rest = [] <;> simp [hr] at hd
        | some c =>
          rw [hn] at hd
          rw [h.get? hn]
          cases c with
          | link target =>
            by_cases hr : rest = []
            · simp only [hr, and_self, if_true, Except.ok.injEq, Spot.there.injEq] at hd
              obtain ⟨hl, he⟩ := hd
              rcases hq with rfl | ⟨-, hne⟩
              · simp [hr, hl, he]
              · exact absurd he.symm (hne target)
            · simp only [hr, false_and, if_false] at hd ⊢
              exact hj _ _ hd
          | file | directory | pipe => exact ih hd

lemma walk_sees (h : fs.Extends fs') (hq : q.Sees e) {links : Nat}
    (hw : fs.walk .entry links loc a = .ok (.there l e)) :
    fs'.walk q links loc a = .ok (.there l e) := by
  induction links generalizing a loc with
  | zero => exact descend_sees h hq (fun _ _ hj => by cases hj) hw
  | succ links ih => exact descend_sees h hq (fun _ _ hj => ih hj) hw

end

section

variable {fs fs' : FileSystem} {p : Path} {n : Name} {l : Location} {e : Entry} {r : Refusal}

lemma find_sees (h : fs.Extends fs') {q : Purpose} (hq : q.Sees e)
    (hf : fs.find .entry p = .ok (.there l e)) : fs'.find q p = .ok (.there l e) := by
  obtain ⟨h1, h2, h3, hw⟩ := find_eq_walk hf
  rw [find_of_walk h1 h2 (by rw [h.startOf]; exact h.get? h3), h.startOf]
  exact walk_sees h hq hw

lemma hasNul_child (h : (p.child n).hasNul = false) : p.hasNul = false := by
  rw [Path.hasNul, Path.child, List.any_cons, Bool.or_eq_false_iff] at h
  exact h.2

lemma find_child_of_lost (hr : r.meansAbsent = true) (h : lost? (fs.find .target p) = some r)
    (hl : (p.child n).byteLength ≤ pathLimit) :
    ∃ r', r'.meansAbsent = true ∧ ∀ q, fs.find q (p.child n) = .error r' := by
  by_cases hnul : (p.child n).hasNul = true
  · exact ⟨.embeddedNul, rfl, fun q => by rw [find, if_pos hnul]⟩
  rw [find, if_neg (by simp [hasNul_child (Bool.eq_false_iff.mpr hnul)])] at h
  by_cases hlong : pathLimit < p.byteLength
  · rw [if_pos hlong] at h
    cases h
    cases hr
  rw [if_neg hlong] at h
  by_cases hstart : fs.get? (fs.startOf p) = some .directory
  · rw [if_pos hstart] at h
    refine ⟨r, hr, fun q => ?_⟩
    have hsteps : (p.child n).steps = p.steps ++ [n.1] := by simp [Path.steps, Path.child]
    rw [find_of_walk (Bool.eq_false_iff.mpr hnul) hl hstart, hsteps]
    exact walk_lost (by simp) (by simpa using ((Path.isName_iff n.1).mp n.2).1) h
  · rw [if_neg hstart] at h
    refine ⟨.noEntry, rfl, fun q => ?_⟩
    have hstart' : ¬ fs.get? (fs.startOf (p.child n)) = some .directory := hstart
    rw [find, if_neg hnul, if_neg (Nat.not_lt.mpr hl), if_neg hstart']

lemma leads_of_child {q : Purpose} {s : Spot} (h : fs.find q (p.child n) = .ok s) :
    ∃ T, fs.Leads p T := by
  obtain ⟨hnul, hlen, hstart, hw⟩ := find_eq_walk h
  have hfind : fs.find .target p = _ := find_of_walk (hasNul_child hnul)
    (Nat.le_trans (p.byteLength_le_child n) hlen) hstart
  have hname : [n.1] ≠ [""] := by simpa using ((Path.isName_iff n.1).mp n.2).1
  have hsteps : (p.child n).steps = p.steps ++ [n.1] := by simp [Path.steps, Path.child]
  rw [hsteps] at hw
  rcases hp : fs.find .target p with r | (⟨k, e⟩ | k)
  · have hlost : lost? (fs.find .target p) = some r := by rw [hp]; rfl
    rw [hfind] at hlost
    cases hw.symm.trans (walk_lost (by simp) hname hlost)
  · obtain ⟨j, hj⟩ := walk_append (q := q) (.refl fs) (by simp) hname (hfind.symm.trans hp)
    cases e with
    | directory => exact ⟨k, hp⟩
    | file | link | pipe => cases hw.symm.trans hj
  · have hlost : lost? (fs.find .target p) = some .noEntry := by rw [hp]; rfl
    rw [hfind] at hlost
    cases hw.symm.trans (walk_lost (by simp) hname hlost)

lemma Leads.of_child (h : fs'.Leads p l) (hg : fs.Extends fs') {q : Purpose} {s : Spot}
    (hf : fs.find q (p.child n) = .ok s) : fs.Leads p l := by
  obtain ⟨k, hk⟩ := leads_of_child hf
  cases h.symm.trans (hk.extends hg)
  exact hk

lemma lost_of_not_exists (h : fs.exists? p = .ok false) :
    ∃ r, r.meansAbsent = true ∧ lost? (fs.find .target p) = some r := by
  rw [exists?, targetAt] at h
  rcases hf : fs.find .target p with r | (⟨l, e⟩ | l)
  · rw [hf, ask] at h
    by_cases hr : r.meansAbsent = true
    · exact ⟨r, hr, rfl⟩
    · rw [if_neg hr] at h
      cases h
  · rw [hf] at h
    cases h
  · exact ⟨.noEntry, rfl, rfl⟩

lemma ask_targetAt_of_lost (hr : r.meansAbsent = true) (h : fs.find .target p = .error r)
    (question : Entry → Bool) : ask (fs.targetAt p) question = .ok false := by
  rw [targetAt, h, ask, if_pos hr]

end

end FileSystem

end Scaffold
