import Scaffold.Proofs.FileSystem.Reaching

namespace Scaffold

def Refusal.isMet (q : Purpose) : Refusal → Bool
  | .noEntry | .notDirectory | .nameTooLong | .tooManyLinks => true
  | .isDirectory => q = .writing
  | .occupied | .notLink | .embeddedNul => false

namespace FileSystem

section

variable {fs fs' : FileSystem} {q : Purpose} {p : Path} {loc : Location} {d : Entry}
  {a : List String} {r : Refusal} {jump : Location → List String → Except Refusal Spot}

lemma enter_refusal {n : String} (hj : ∀ loc a r, jump loc a = .error r → r.isMet q = true)
    (hd : ∀ d, fs.descend q jump (n :: loc) d a = .error r → r.isMet q = true)
    (h : fs.enter q jump loc n a = .error r) : r.isMet q = true := by
  rw [enter] at h
  cases hn : fs.get? (n :: loc) with
  | none =>
    rw [hn] at h
    by_cases ha : a = []
    · simp [ha] at h
    · simp only [ha, if_false] at h
      cases h
      rfl
  | some c =>
    rw [hn] at h
    cases c with
    | link target =>
      by_cases ha : a = [] ∧ q = .entry
      · simp [ha] at h
      · simp only [ha, if_false] at h
        exact hj _ _ _ h
    | file | directory | pipe => exact hd _ h

lemma descend_refusal (hj : ∀ loc a r, jump loc a = .error r → r.isMet q = true)
    (h : fs.descend q jump loc d a = .error r) : r.isMet q = true := by
  induction a generalizing loc d with
  | nil => cases d <;> cases h
  | cons n rest ih =>
    cases d with
    | file | link | pipe =>
      cases h
      rfl
    | directory =>
      cases hturn : turn loc n with
      | some loc' =>
        rw [descend_turn hturn] at h
        exact ih h
      | none =>
        by_cases hw : q = .writing ∧ rest = [""]
        · obtain ⟨hempty, hdot, hup⟩ := turn_eq_none_iff.mp hturn
          rw [descend, if_neg (not_or.mpr ⟨hempty, hdot⟩), if_neg hup, if_pos hw] at h
          cases h
          exact decide_eq_true hw.1
        by_cases hs : n.utf8ByteSize ≤ nameLimit
        · rw [descend_name hturn hw hs] at h
          exact enter_refusal hj (fun _ => ih) h
        · obtain ⟨hempty, hdot, hup⟩ := turn_eq_none_iff.mp hturn
          rw [descend, if_neg (not_or.mpr ⟨hempty, hdot⟩), if_neg hup, if_neg hw,
            if_pos (Nat.not_le.mp hs)] at h
          cases h
          rfl

lemma walk_refusal {links : Nat} (h : fs.walk q links loc a = .error r) : r.isMet q = true := by
  induction links generalizing loc a r with
  | zero =>
    apply descend_refusal _ h
    intro loc a r hr
    cases hr
    rfl
  | succ links ih => exact descend_refusal (fun _ _ _ => ih) h

lemma find_refusal (hp : p.hasNul = false) (h : fs.find q p = .error r) : r.isMet q = true := by
  rw [find, hp, if_neg Bool.false_ne_true] at h
  split_ifs at h
  · cases h
    rfl
  · exact walk_refusal h
  · cases h
    rfl

lemma find_of_nul (hp : p.hasNul = true) : fs.find q p = .error .embeddedNul := by
  rw [find, if_pos hp]

lemma hasNul_of_find {s : Spot} (h : fs.find q p = .ok s) : p.hasNul = false := by
  by_contra hp
  rw [find_of_nul (by simpa using hp)] at h
  cases h

lemma ask_refusal {question : Entry → Bool} (h : ask (fs.targetAt p) question = .error r) :
    r = .nameTooLong := by
  have hmet : ∀ r', fs.targetAt p = .error r' → r' = .embeddedNul ∨ r'.isMet .target = true := by
    intro r' hr
    rw [targetAt] at hr
    by_cases hp : p.hasNul = true
    · rw [find_of_nul hp] at hr
      exact .inl (Except.error.inj hr).symm
    · rcases hf : fs.find .target p with r'' | (⟨l, e⟩ | l)
      · rw [hf] at hr
        obtain rfl := Except.error.inj hr
        exact .inr (find_refusal (Bool.eq_false_iff.mpr hp) hf)
      · rw [hf] at hr
        cases hr
      · rw [hf] at hr
        cases hr
        exact .inr rfl
  cases ht : fs.targetAt p with
  | ok e =>
    rw [ht] at h
    cases h
  | error r' =>
    rw [ht, ask] at h
    cases r' with
    | noEntry | notDirectory | tooManyLinks | embeddedNul => cases h
    | nameTooLong => exact (Except.error.inj h).symm
    | isDirectory | occupied | notLink => rcases hmet _ ht with hm | hm <;> cases hm

lemma hasNul_of_refused (h : fs.find q p = .error .embeddedNul) : p.hasNul = true := by
  by_contra hp
  cases find_refusal (Bool.eq_false_iff.mpr hp) h

lemma entryAt_nul (h : fs.entryAt p = .error .embeddedNul) : p.hasNul = true := by
  grind [entryAt, hasNul_of_refused]

lemma targetAt_nul (h : fs.targetAt p = .error .embeddedNul) : p.hasNul = true := by
  grind [targetAt, hasNul_of_refused]

lemma ask_ne_nul (found : Except Refusal Entry) (question : Entry → Bool) :
    ask found question ≠ .error .embeddedNul := by
  intro h
  cases found with
  | ok e => cases h
  | error r =>
    rw [ask] at h
    split_ifs at h with ha
    obtain rfl := Except.error.inj h
    exact ha rfl

lemma readLink_nul (h : fs.readLink p = .error .embeddedNul) : p.hasNul = true := by
  grind [readLink, entryAt_nul]

lemma readFile_nul (h : fs.readFile p = .error .embeddedNul) : p.hasNul = true := by
  grind [readFile, targetAt_nul]

lemma list_nul (h : fs.list p = .error .embeddedNul) : p.hasNul = true := by
  grind [list, hasNul_of_refused]

lemma makeDirectory_nul (h : fs.makeDirectory p = .error .embeddedNul) : p.hasNul = true := by
  grind [makeDirectory, hasNul_of_refused]

lemma makeLink_nul {target : String} (h : fs.makeLink target p = .error .embeddedNul) :
    p.hasNul = true := by
  grind [makeLink, hasNul_of_refused]

lemma removeFile_nul (h : fs.removeFile p = .error .embeddedNul) : p.hasNul = true := by
  grind [removeFile, hasNul_of_refused]

lemma writeFile_nul {bytes : ByteArray} (h : fs.writeFile p bytes = .error .embeddedNul) :
    p.hasNul = true := by
  grind [writeFile, hasNul_of_refused]

lemma setMode_nul {mode : Nat} (h : fs.setMode p mode = .error .embeddedNul) :
    p.hasNul = true := by
  grind [setMode, hasNul_of_refused]

lemma isEntryName_of_list {names : List Name} (h : fs.list p = .ok names) :
    p.hasNul = false ∧ ∀ n ∈ names, isEntryName n.1 = true := by
  rw [list] at h
  split at h
  · rename_i l hf
    obtain rfl := Except.ok.inj h
    refine ⟨hasNul_of_find hf, fun n hn => ?_⟩
    obtain ⟨m, -, rfl⟩ := List.mem_map.mp hn
    have hm : m.1 :: l ∈ fs.entries := by simpa [get?] using (fs.mem_names l m.1).mp m.2
    exact (fs.closed m.1 l hm).1
  · cases h
  · cases h
  · cases h

end

end FileSystem

end Scaffold
