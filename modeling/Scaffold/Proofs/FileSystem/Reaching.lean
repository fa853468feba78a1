import Mathlib.Tactic.Common
import Scaffold.FileSystem.Operations

/-! What a path leads to stays the same while the file system only grows, and a path that leads to a
directory can be followed by one more name. -/

namespace Scaffold

lemma length_le_intercalate {l : List String} (h : ∀ n ∈ l, n ≠ "") :
    2 * l.length ≤ (String.intercalate "/" l).utf8ByteSize + 1 := by
  induction l with
  | nil => simp
  | cons a l ih =>
    have ha : 1 ≤ a.utf8ByteSize := Nat.one_le_iff_ne_zero.mpr fun hz =>
      h a List.mem_cons_self (String.utf8ByteSize_eq_zero_iff.mp hz)
    have hl := ih fun n hn => h n (List.mem_cons_of_mem a hn)
    cases l with
    | nil =>
      rw [String.intercalate_singleton, List.length_singleton]
      omega
    | cons b l =>
      have hs : "/".utf8ByteSize = 1 := rfl
      rw [String.intercalate_cons_cons, String.utf8ByteSize_append, String.utf8ByteSize_append, hs]
      simp only [List.length_cons] at hl ⊢
      omega

lemma Path.length_lt {p : Path} (h : p.byteLength ≤ pathLimit) : p.names.length < pathLimit := by
  have hn : ∀ n ∈ p.steps, n ≠ "" := by
    intro n hn
    obtain ⟨m, -, rfl⟩ := List.mem_map.mp (List.mem_reverse.mp hn)
    exact ((Path.isName_iff m.1).mp m.2).1
  have hlen : p.steps.length = p.names.length := by simp [Path.steps]
  have hi := length_le_intercalate hn
  by_cases hp : p = Path.here
  · rw [hp]
    decide
  · rw [Path.byteLength, Path.text, if_neg hp, String.utf8ByteSize_append] at h
    rw [pathLimit] at h ⊢
    omega

namespace FileSystem

structure Extends (fs fs' : FileSystem) : Prop where
  workDir : fs'.workDir = fs.workDir
  get? : ∀ {l e}, fs.get? l = some e → fs'.get? l = some e

lemma Extends.refl (fs : FileSystem) : fs.Extends fs := ⟨rfl, id⟩

lemma Extends.trans {fs fs' fs'' : FileSystem} (h : fs.Extends fs') (h' : fs'.Extends fs'') :
    fs.Extends fs'' :=
  ⟨h'.workDir.trans h.workDir, fun hl => h'.get? (h.get? hl)⟩

lemma eraseBelow_extends (fs : FileSystem) (T : Location) : (fs.eraseBelow T).Extends fs := by
  refine ⟨rfl, fun {l e} hl => ?_⟩
  rw [get?_eraseBelow] at hl
  split_ifs at hl
  exact hl

def turn (loc : Location) (n : String) : Option Location :=
  if n = "" ∨ n = "." then some loc
  else if n = ".." then some loc.tail
  else none

def enter (fs : FileSystem) (q : Purpose) (jump : Location → List String → Except Refusal Spot)
    (loc : Location) (n : String) (rest : List String) : Except Refusal Spot :=
  match fs.get? (n :: loc) with
  | none => if rest = [] then .ok (.vacant (n :: loc)) else .error .noEntry
  | some (.link target) =>
    if rest = [] ∧ q = .entry then .ok (.there (n :: loc) (.link target))
    else jump (linkStart target loc) (linkSteps target ++ rest)
  | some e => fs.descend q jump (n :: loc) e rest

lemma turn_eq_none_iff {loc : Location} {n : String} :
    turn loc n = none ↔ n ≠ "" ∧ n ≠ "." ∧ n ≠ ".." := by
  by_cases h : n = "" ∨ n = "."
  · rw [turn, if_pos h]
    tauto
  · rw [turn, if_neg h]
    by_cases hup : n = ".." <;> simp_all

section

variable {fs fs' : FileSystem} {q : Purpose} {loc l : Location} {n : String} {rest a b : List String}
  {d e : Entry} {s : Spot} {jump jump' : Location → List String → Except Refusal Spot}

lemma descend_turn {loc' : Location} (h : turn loc n = some loc') :
    fs.descend q jump loc .directory (n :: rest) = fs.descend q jump loc' .directory rest := by
  rw [turn] at h
  split_ifs at h with h1 h2
  · cases h
    rw [descend, if_pos h1]
  · cases h
    rw [descend, if_neg h1, if_pos h2]

lemma descend_name (h : turn loc n = none) (hw : ¬ (q = .writing ∧ rest = [""]))
    (hs : n.utf8ByteSize ≤ nameLimit) :
    fs.descend q jump loc .directory (n :: rest) = fs.enter q jump loc n rest := by
  obtain ⟨hempty, hdot, hup⟩ := turn_eq_none_iff.mp h
  rw [descend, if_neg (not_or.mpr ⟨hempty, hdot⟩), if_neg hup, if_neg hw,
    if_neg (Nat.not_lt.mpr hs)]
  rfl

lemma descend_name_eq_ok (h : turn loc n = none)
    (hd : fs.descend q jump loc .directory (n :: rest) = .ok s) :
    n.utf8ByteSize ≤ nameLimit ∧ fs.enter q jump loc n rest = .ok s := by
  obtain ⟨hempty, hdot, hup⟩ := turn_eq_none_iff.mp h
  have hd' := hd
  rw [descend, if_neg (not_or.mpr ⟨hempty, hdot⟩), if_neg hup] at hd'
  by_cases hw : q = .writing ∧ rest = [""]
  · rw [if_pos hw] at hd'
    cases hd'
  by_cases hs : nameLimit < n.utf8ByteSize
  · rw [if_neg hw, if_pos hs] at hd'
    cases hd'
  · exact ⟨Nat.not_lt.mp hs, (descend_name h hw (Nat.not_lt.mp hs)).symm.trans hd⟩

lemma descend_append (h : fs.Extends fs') (hq : b = [] → q = .target) (hs : b ≠ [""])
    (hj : ∀ loc a l e, jump loc a = .ok (.there l e) →
      ∃ j, jump' loc (a ++ b) = fs'.descend q j l e b)
    (hd : fs.descend .target jump loc d a = .ok (.there l e)) :
    ∃ j, fs'.descend q jump' loc d (a ++ b) = fs'.descend q j l e b := by
  induction a generalizing loc d with
  | nil =>
    simp only [descend, Except.ok.injEq, Spot.there.injEq] at hd
    obtain ⟨rfl, rfl⟩ := hd
    exact ⟨jump', rfl⟩
  | cons n rest ih =>
    cases d with
    | file | link | pipe => cases hd
    | directory =>
      rw [List.cons_append]
      cases hturn : turn loc n with
      | some loc' =>
        rw [descend_turn hturn] at hd ⊢
        exact ih hd
      | none =>
        obtain ⟨hsize, hd⟩ := descend_name_eq_ok hturn hd
        rw [descend_name hturn ?_ hsize, enter]
        swap
        · rintro ⟨rfl, hr⟩
          rcases List.append_eq_singleton_iff.mp hr with ⟨_, hr⟩ | ⟨_, hr⟩
          · exact hs hr
          · cases hq hr
        rw [enter] at hd
        cases hn : fs.get? (n :: loc) with
        | none =>
          rw [hn] at hd
          by_cases hr : rest = [] <;> simp [hr] at hd
        | some c =>
          rw [hn] at hd
          rw [h.get? hn]
          cases c with
          | link target =>
            have he : ¬ (rest ++ b = [] ∧ q = .entry) := by
              rintro ⟨hr, rfl⟩
              cases hq (List.append_eq_nil_iff.mp hr).2
            simp only [reduceCtorEq, and_false, if_false] at hd
            simp only [he, if_false, ← List.append_assoc]
            exact hj _ _ _ _ hd
          | file | directory | pipe => exact ih hd

lemma walk_append (h : fs.Extends fs') (hq : b = [] → q = .target) (hs : b ≠ [""]) {links : Nat}
    (hw : fs.walk .target links loc a = .ok (.there l e)) :
    ∃ j, fs'.walk q links loc (a ++ b) = fs'.descend q j l e b := by
  induction links generalizing a loc l e with
  | zero => exact descend_append h hq hs (fun _ _ _ _ hj => by cases hj) hw
  | succ links ih => exact descend_append h hq hs (fun _ _ _ _ hj => ih hj) hw

lemma descend_vacant (h : fs.Extends fs') (hl : fs'.get? l = some .directory)
    (hj : ∀ loc a, jump loc a = .ok (.vacant l) → jump' loc a = .ok (.there l .directory))
    (hd : fs.descend .entry jump loc d a = .ok (.vacant l)) :
    fs'.descend .target jump' loc d a = .ok (.there l .directory) := by
  induction a generalizing loc d with
  | nil => cases d <;> cases hd
  | cons n rest ih =>
    cases d with
    | file | link | pipe => cases hd
    | directory =>
      cases hturn : turn loc n with
      | some loc' =>
        rw [descend_turn hturn] at hd ⊢
        exact ih hd
      | none =>
        obtain ⟨hsize, hd⟩ := descend_name_eq_ok hturn hd
        rw [descend_name hturn (by simp) hsize, enter]
        rw [enter] at hd
        cases hn : fs.get? (n :: loc) with
        | none =>
          rw [hn] at hd
          by_cases hr : rest = []
          · simp only [hr, if_true, Except.ok.injEq, Spot.vacant.injEq] at hd
            simp only [hd, hl, hr, descend]
          · simp [hr] at hd
        | some c =>
          rw [hn] at hd
          rw [h.get? hn]
          cases c with
          | link target =>
            by_cases hr : rest = []
            · simp [hr] at hd
            · simp only [hr, false_and, if_false] at hd
              simp only [reduceCtorEq, and_false, if_false]
              exact hj _ _ hd
          | file | directory | pipe => exact ih hd

lemma walk_vacant (h : fs.Extends fs') (hl : fs'.get? l = some .directory) {links : Nat}
    (hw : fs.walk .entry links loc a = .ok (.vacant l)) :
    fs'.walk .target links loc a = .ok (.there l .directory) := by
  induction links generalizing a loc with
  | zero => exact descend_vacant h hl (fun _ _ hj => by cases hj) hw
  | succ links ih => exact descend_vacant h hl (fun _ _ hj => ih hj) hw

lemma descend_entry
    (hj : ∀ loc a, jump loc a = .ok (.there l e) → ∃ l' e', jump' loc a = .ok (.there l' e'))
    (hd : fs.descend .target jump loc d a = .ok (.there l e)) :
    ∃ l' e', fs.descend .entry jump' loc d a = .ok (.there l' e') := by
  induction a generalizing loc d with
  | nil => exact ⟨loc, d, by cases d <;> rfl⟩
  | cons n rest ih =>
    cases d with
    | file | link | pipe => cases hd
    | directory =>
      cases hturn : turn loc n with
      | some loc' =>
        rw [descend_turn hturn] at hd ⊢
        exact ih hd
      | none =>
        obtain ⟨hsize, hd⟩ := descend_name_eq_ok hturn hd
        rw [descend_name hturn (by simp) hsize, enter]
        rw [enter] at hd
        cases hn : fs.get? (n :: loc) with
        | none =>
          rw [hn] at hd
          by_cases hr : rest = [] <;> simp [hr] at hd
        | some c =>
          rw [hn] at hd
          cases c with
          | link target =>
            simp only [reduceCtorEq, and_false, if_false] at hd
            by_cases hr : rest = []
            · exact ⟨n :: loc, .link target, by simp [hr]⟩
            · simp only [hr, false_and, if_false]
              exact hj _ _ hd
          | file | directory | pipe => exact ih hd

lemma walk_entry {links : Nat} (hw : fs.walk .target links loc a = .ok (.there l e)) :
    ∃ l' e', fs.walk .entry links loc a = .ok (.there l' e') := by
  induction links generalizing a loc with
  | zero => exact descend_entry (fun _ _ hj => by cases hj) hw
  | succ links ih => exact descend_entry (fun _ _ hj => ih hj) hw

end

def spotAt (fs : FileSystem) (l : Location) : Spot :=
  match fs.get? l with
  | none => .vacant l
  | some e => .there l e

section

variable {fs : FileSystem} {q : Purpose} {loc l : Location} {a : List String} {d : Entry} {s : Spot}
  {jump : Location → List String → Except Refusal Spot}

lemma spotAt_eq_there {l' : Location} {e : Entry} (h : fs.spotAt l = .there l' e) :
    l' = l ∧ fs.get? l = some e := by
  rw [spotAt] at h
  cases hg : fs.get? l with
  | none =>
    rw [hg] at h
    cases h
  | some d =>
    rw [hg] at h
    cases h
    exact ⟨rfl, rfl⟩

lemma spotAt_eq_vacant {l' : Location} (h : fs.spotAt l = .vacant l') :
    l' = l ∧ fs.get? l = none := by
  rw [spotAt] at h
  cases hg : fs.get? l with
  | none =>
    rw [hg] at h
    cases h
    exact ⟨rfl, rfl⟩
  | some d =>
    rw [hg] at h
    cases h

lemma get?_tail (h : fs.get? loc = some .directory) : fs.get? loc.tail = some .directory := by
  cases loc with
  | nil => exact h
  | cons n loc =>
    exact (fs.closed n loc (Std.ExtTreeMap.mem_iff_isSome_getElem?.mpr (by
      rw [get?] at h
      rw [h]
      rfl))).2

lemma get?_turn (h : fs.get? loc = some .directory) {n : String} {loc' : Location}
    (ht : turn loc n = some loc') : fs.get? loc' = some .directory := by
  rw [turn] at ht
  split_ifs at ht with h1 h2
  · cases ht
    exact h
  · cases ht
    exact get?_tail h

lemma get?_linkStart (h : fs.get? loc = some .directory) (target : String) :
    fs.get? (linkStart target loc) = some .directory := by
  rw [linkStart]
  split_ifs
  · exact fs.get?_root
  · exact h

lemma descend_eq_spotAt
    (hj : ∀ loc a, fs.get? loc = some .directory → jump loc a = .ok s → ∃ l, s = fs.spotAt l)
    (hloc : fs.get? loc = some d) (hd : fs.descend q jump loc d a = .ok s) :
    ∃ l, s = fs.spotAt l := by
  induction a generalizing loc d with
  | nil =>
    refine ⟨loc, ?_⟩
    rw [spotAt, hloc]
    cases d <;> exact (Except.ok.inj hd).symm
  | cons n rest ih =>
    cases d with
    | file | link | pipe => cases hd
    | directory =>
      cases hturn : turn loc n with
      | some loc' =>
        rw [descend_turn hturn] at hd
        exact ih (get?_turn hloc hturn) hd
      | none =>
        have henter := (descend_name_eq_ok hturn hd).2
        rw [enter] at henter
        cases hn : fs.get? (n :: loc) with
        | none =>
          rw [hn] at henter
          by_cases hr : rest = []
          · simp only [hr, if_true, Except.ok.injEq] at henter
            refine ⟨n :: loc, ?_⟩
            rw [spotAt, hn]
            exact henter.symm
          · simp [hr] at henter
        | some c =>
          rw [hn] at henter
          cases c with
          | link target =>
            by_cases hr : rest = [] ∧ q = .entry
            · simp only [hr, and_self, if_true, Except.ok.injEq] at henter
              refine ⟨n :: loc, ?_⟩
              rw [spotAt, hn]
              exact henter.symm
            · simp only [hr, if_false] at henter
              exact hj _ _ (get?_linkStart hloc target) henter
          | file | directory | pipe => exact ih hn henter

lemma walk_eq_spotAt {links : Nat} (hloc : fs.get? loc = some .directory)
    (hw : fs.walk q links loc a = .ok s) : ∃ l, s = fs.spotAt l := by
  induction links generalizing a loc with
  | zero => exact descend_eq_spotAt (fun _ _ _ hj => by cases hj) hloc hw
  | succ links ih => exact descend_eq_spotAt (fun _ _ hd hj => ih hd hj) hloc hw

def Reserved (fs : FileSystem) (l : Location) (a : List String) : Prop :=
  ∃ n loc, l = n :: loc ∧ a.getLast? = some n ∧ turn loc n = none ∧ n.utf8ByteSize ≤ nameLimit ∧
    fs.get? loc = some .directory

lemma Reserved.append {b : List String} (h : fs.Reserved l b) (a : List String) :
    fs.Reserved l (a ++ b) := by
  obtain ⟨n, loc, hl, hb, hn⟩ := h
  refine ⟨n, loc, hl, ?_, hn⟩
  rw [List.getLast?_append, hb, Option.some_or]

lemma Reserved.of_append {b : List String} (hb : b ≠ []) (h : fs.Reserved l (a ++ b)) :
    fs.Reserved l b := by
  obtain ⟨n, loc, hl, hlast, hn⟩ := h
  have hsome := List.getLast?_eq_some_getLast hb
  rw [List.getLast?_append, hsome, Option.some_or] at hlast
  exact ⟨n, loc, hl, hsome.trans hlast, hn⟩

lemma descend_reserved
    (hj : ∀ loc a, fs.get? loc = some .directory → jump loc a = .ok (.vacant l) →
      fs.Reserved l a)
    (hloc : fs.get? loc = some d) (hd : fs.descend .entry jump loc d a = .ok (.vacant l)) :
    fs.Reserved l a := by
  induction a generalizing loc d with
  | nil => cases d <;> cases hd
  | cons n rest ih =>
    cases d with
    | file | link | pipe => cases hd
    | directory =>
      cases hturn : turn loc n with
      | some loc' =>
        rw [descend_turn hturn] at hd
        exact (ih (get?_turn hloc hturn) hd).append [n]
      | none =>
        obtain ⟨hsize, henter⟩ := descend_name_eq_ok hturn hd
        rw [enter] at henter
        cases hn : fs.get? (n :: loc) with
        | none =>
          rw [hn] at henter
          by_cases hr : rest = []
          · simp only [hr, if_true, Except.ok.injEq, Spot.vacant.injEq] at henter
            subst hr
            exact ⟨n, loc, henter.symm, rfl, hturn, hsize, hloc⟩
          · simp [hr] at henter
        | some c =>
          rw [hn] at henter
          cases c with
          | link target =>
            by_cases hr : rest = []
            · simp [hr] at henter
            · simp only [hr, false_and, if_false] at henter
              have hway := hj _ _ (get?_linkStart hloc target) henter
              exact (hway.of_append hr).append [n]
          | file | directory | pipe => exact (ih hn henter).append [n]

lemma walk_reserved {links : Nat} (hloc : fs.get? loc = some .directory)
    (hw : fs.walk .entry links loc a = .ok (.vacant l)) : fs.Reserved l a := by
  induction links generalizing a loc with
  | zero => exact descend_reserved (fun _ _ _ hj => by cases hj) hloc hw
  | succ links ih => exact descend_reserved (fun _ _ hd hj => ih hd hj) hloc hw

end

/-- A path that is looked up at one location, unless a link stands there and is passed through. -/
structure Denotes (fs : FileSystem) (p : Path) (l : Location) : Prop where
  entry : fs.find .entry p = .ok (fs.spotAt l)
  through : ∀ q, (∀ target, fs.get? l ≠ some (.link target)) → fs.find q p = .ok (fs.spotAt l)

def Leads (fs : FileSystem) (p : Path) (loc : Location) : Prop :=
  fs.find .target p = .ok (.there loc .directory)

deriving instance DecidableEq for Spot

instance (fs : FileSystem) (p : Path) (loc : Location) : Decidable (fs.Leads p loc) :=
  inferInstanceAs (Decidable (fs.find .target p = .ok (.there loc .directory)))

section

variable {fs fs' : FileSystem} {p : Path} {n : Name} {loc : Location}

lemma find_eq_walk {q : Purpose} {s : Spot} (h : fs.find q p = .ok s) :
    p.hasNul = false ∧ p.byteLength ≤ pathLimit ∧ fs.get? (fs.startOf p) = some .directory ∧
      fs.walk q linkLimit (fs.startOf p) p.steps = .ok s := by
  unfold find at h
  split_ifs at h with h1 h2 h3
  exact ⟨by simpa using h1, Nat.not_lt.mp h2, h3, h⟩

lemma find_of_walk {q : Purpose} (h1 : p.hasNul = false) (h2 : p.byteLength ≤ pathLimit)
    (h3 : fs.get? (fs.startOf p) = some .directory) :
    fs.find q p = fs.walk q linkLimit (fs.startOf p) p.steps := by
  rw [find, if_neg (by simp [h1]), if_neg (Nat.not_lt.mpr h2), if_pos h3]

lemma find_eq_spotAt {q : Purpose} {s : Spot} (h : fs.find q p = .ok s) :
    ∃ l, s = fs.spotAt l := by
  obtain ⟨-, -, hstart, hw⟩ := find_eq_walk h
  exact walk_eq_spotAt hstart hw

lemma get?_of_vacant {q : Purpose} (h : fs.find q p = .ok (.vacant loc)) :
    fs.get? loc = none := by
  obtain ⟨l, hl⟩ := find_eq_spotAt h
  cases hg : fs.get? l with
  | none =>
    rw [spotAt, hg] at hl
    cases hl
    exact hg
  | some e => simp [spotAt, hg] at hl

lemma get?_of_there {q : Purpose} {e : Entry} (h : fs.find q p = .ok (.there loc e)) :
    fs.get? loc = some e := by
  obtain ⟨l, hl⟩ := find_eq_spotAt h
  obtain ⟨rfl, hget⟩ := spotAt_eq_there hl.symm
  exact hget

lemma entryAt_eq_ok {e : Entry} (h : fs.entryAt p = .ok e) :
    ∃ l, fs.find .entry p = .ok (.there l e) := by
  rw [entryAt] at h
  rcases hf : fs.find .entry p with r | (⟨l, d⟩ | l)
  · rw [hf] at h
    cases h
  · rw [hf] at h
    cases h
    exact ⟨l, rfl⟩
  · rw [hf] at h
    cases h

lemma targetAt_eq_ok {e : Entry} (h : fs.targetAt p = .ok e) :
    ∃ l, fs.find .target p = .ok (.there l e) := by
  rw [targetAt] at h
  rcases hf : fs.find .target p with r | (⟨l, d⟩ | l)
  · rw [hf] at h
    cases h
  · rw [hf] at h
    cases h
    exact ⟨l, rfl⟩
  · rw [hf] at h
    cases h

lemma ask_eq_true_iff {found : Except Refusal Entry} {question : Entry → Bool} :
    ask found question = .ok true ↔ ∃ e, found = .ok e ∧ question e = true := by
  cases found with
  | error r =>
    rw [ask]
    split <;> simp
  | ok e => simp [ask]

lemma isFile_eq_true_iff : fs.isFile p = .ok true ↔ ∃ b m, fs.targetAt p = .ok (.file b m) := by
  rw [isFile, ask_eq_true_iff]
  constructor
  · rintro ⟨_ | ⟨b, m⟩ | _ | _, ht, hfile⟩ <;> cases hfile
    exact ⟨b, m, ht⟩
  · rintro ⟨b, m, ht⟩
    exact ⟨_, ht, rfl⟩

lemma Leads.get? (h : fs.Leads p loc) : fs.get? loc = some .directory :=
  get?_of_there h

lemma Leads.entry (h : fs.Leads p loc) : ∃ l e, fs.find .entry p = .ok (.there l e) := by
  obtain ⟨h1, h2, h3, hw⟩ := find_eq_walk h
  rw [find_of_walk h1 h2 h3]
  exact walk_entry hw

lemma leads_of_isDirectory (h : fs.isDirectory p = .ok true) : ∃ loc, fs.Leads p loc := by
  obtain ⟨e, ht, hdir⟩ := ask_eq_true_iff.mp h
  obtain ⟨l, hl⟩ := targetAt_eq_ok ht
  cases e with
  | directory => exact ⟨l, hl⟩
  | file | link | pipe => cases hdir

lemma Leads.targetAt (h : fs.Leads p loc) : fs.targetAt p = .ok .directory := by
  rw [FileSystem.targetAt, show fs.find .target p = _ from h]

lemma Leads.isDirectory (h : fs.Leads p loc) : fs.isDirectory p = .ok true :=
  ask_eq_true_iff.mpr ⟨_, h.targetAt, rfl⟩

lemma Leads.exists? (h : fs.Leads p loc) : fs.exists? p = .ok true :=
  ask_eq_true_iff.mpr ⟨_, h.targetAt, rfl⟩

lemma Extends.startOf (h : fs.Extends fs') (p : Path) : fs'.startOf p = fs.startOf p := by
  simp only [FileSystem.startOf, h.workDir]

lemma Extends.find (h : fs.Extends fs') {e : Entry}
    (hp : fs.find .target p = .ok (.there loc e)) : fs'.find .target p = .ok (.there loc e) := by
  obtain ⟨h1, h2, h3, hw⟩ := find_eq_walk hp
  obtain ⟨j, hj⟩ := walk_append (q := .target) (b := []) h (fun _ => rfl) (by simp) hw
  rw [find_of_walk h1 h2 (by rw [h.startOf]; exact h.get? h3), h.startOf]
  cases e <;> simpa [descend] using hj

lemma Leads.extends (hp : fs.Leads p loc) (h : fs.Extends fs') : fs'.Leads p loc :=
  h.find hp

lemma leads_of_vacant (hp : fs.find .entry p = .ok (.vacant loc)) (h : fs.Extends fs')
    (hl : fs'.get? loc = some .directory) : fs'.Leads p loc := by
  obtain ⟨h1, h2, h3, hw⟩ := find_eq_walk hp
  rw [Leads, find_of_walk h1 h2 (by rw [h.startOf]; exact h.get? h3), h.startOf]
  exact walk_vacant h hl hw

lemma isEntryName_iff (n : Name) : isEntryName n.1 = true ↔
    n.1 ≠ ".." ∧ n.1.toList.contains '\x00' = false ∧ n.1.utf8ByteSize ≤ nameLimit := by
  simp [isEntryName, n.2, and_assoc]

lemma canHold_of_vacant (h : fs.find .entry p = .ok (.vacant loc)) : fs.canHold loc = true := by
  obtain ⟨h1, -, h3, hw⟩ := find_eq_walk h
  obtain ⟨k, l, rfl, hlast, hturn, hsize, hl⟩ := walk_reserved h3 hw
  rw [Path.steps, List.getLast?_reverse, List.head?_map] at hlast
  obtain ⟨m, hm, rfl⟩ := Option.map_eq_some_iff.mp hlast
  have hnul : m.1.toList.contains '\x00' = false := by
    rw [Path.hasNul, List.any_eq_false] at h1
    simpa using h1 m (List.mem_of_mem_head? hm)
  simp [canHold, (isEntryName_iff m).mpr ⟨(turn_eq_none_iff.mp hturn).2.2, hnul, hsize⟩, hl]

lemma descend_last {q : Purpose} {j : Location → List String → Except Refusal Spot}
    (hn : isEntryName n.1 = true)
    (hq : q = .entry ∨ ∀ target, fs.get? (n.1 :: loc) ≠ some (.link target)) :
    fs.descend q j loc .directory [n.1] = .ok (fs.spotAt (n.1 :: loc)) := by
  obtain ⟨hup, -, hsize⟩ := (isEntryName_iff n).mp hn
  obtain ⟨hempty, hdot, -⟩ := (Path.isName_iff n.1).mp n.2
  have hs : ¬ nameLimit < n.1.utf8ByteSize := Nat.not_lt.mpr hsize
  simp only [descend, hempty, hdot, hup, hs, or_self, reduceCtorEq, and_false, if_false, if_true,
    true_and, spotAt]
  cases he : fs.get? (n.1 :: loc) with
  | none => rfl
  | some e =>
    cases e with
    | link target =>
      rcases hq with rfl | hq
      · rfl
      · exact absurd he (hq target)
    | file | directory | pipe => rfl

lemma Leads.denotes (hp : fs.Leads p loc) (hn : isEntryName n.1 = true)
    (hl : (p.child n).byteLength ≤ pathLimit) : fs.Denotes (p.child n) (n.1 :: loc) := by
  obtain ⟨h1, -, h3, hw⟩ := find_eq_walk hp
  have hnul : (p.child n).hasNul = false := by
    rw [Path.hasNul, Path.child, List.any_cons, ((isEntryName_iff n).mp hn).2.1]
    exact h1
  have hsteps : (p.child n).steps = p.steps ++ [n.1] := by simp [Path.steps, Path.child]
  have hfind (q : Purpose)
      (hq : q = .entry ∨ ∀ target, fs.get? (n.1 :: loc) ≠ some (.link target)) :
      fs.find q (p.child n) = .ok (fs.spotAt (n.1 :: loc)) := by
    obtain ⟨j, hj⟩ := walk_append (q := q) (b := [n.1]) (Extends.refl fs) (by simp)
      (by simpa using ((Path.isName_iff n.1).mp n.2).1) hw
    rw [find_of_walk hnul hl h3, hsteps, ← descend_last hn hq]
    exact hj
  exact ⟨hfind .entry (.inl rfl), fun q hq => hfind q (.inr hq)⟩

lemma Leads.refused (hp : fs.Leads p loc) (hup : n.1 ≠ "..")
    (h : ¬ (isEntryName n.1 = true ∧ (p.child n).byteLength ≤ pathLimit)) :
    ∃ r, r ≠ .noEntry ∧ ∀ q, fs.find q (p.child n) = .error r := by
  by_cases hnul : (p.child n).hasNul = true
  · exact ⟨.embeddedNul, by decide, fun q => by rw [find, if_pos hnul]⟩
  by_cases hl : (p.child n).byteLength ≤ pathLimit
  swap
  · refine ⟨.nameTooLong, by decide, fun q => ?_⟩
    rw [find, if_neg hnul, if_pos (Nat.not_le.mp hl)]
  refine ⟨.nameTooLong, by decide, fun q => ?_⟩
  obtain ⟨-, -, h3, hw⟩ := find_eq_walk hp
  have hsize : nameLimit < n.1.utf8ByteSize := by
    by_contra hs
    refine h ⟨(isEntryName_iff n).mpr ⟨hup, ?_, Nat.not_lt.mp hs⟩, hl⟩
    rw [Path.hasNul, Path.child, List.any_cons, Bool.or_eq_true, not_or] at hnul
    exact Bool.eq_false_iff.mpr hnul.1
  obtain ⟨hempty, hdot, -⟩ := (Path.isName_iff n.1).mp n.2
  have hsteps : (p.child n).steps = p.steps ++ [n.1] := by simp [Path.steps, Path.child]
  obtain ⟨j, hj⟩ := walk_append (q := q) (b := [n.1]) (Extends.refl fs) (by simp)
    (by simpa using hempty) hw
  have hlast : fs.descend q j loc .directory [n.1] = .error .nameTooLong := by
    simp [descend, hempty, hdot, hup, hsize]
  rw [find_of_walk (Bool.eq_false_iff.mpr hnul) hl h3, hsteps, ← hlast]
  exact hj

end

end FileSystem

end Scaffold
