import Mathlib.Data.Finset.Card
import Scaffold.Proofs.Expr.Straying
import Scaffold.Proofs.FileSystem.Reaching

/-! Where the files that make other files can be ranked, so that each makes files of smaller ranks
only, every expansion ends: it nests no deeper than the ranks go. -/

namespace Scaffold.Expr

mutual

def MakesOnly (fit : String → Prop) : Expr → Prop
  | .absent | .var _ | .lit _ => True
  | .seq a b | .equals a b | .orElse a b => a.MakesOnly fit ∧ b.MakesOnly fit
  | .cond test success failure =>
    test.MakesOnly fit ∧ success.MakesOnly fit ∧ failure.MakesOnly fit
  | .call function file define _ =>
    (Function.ofName? function = some .make → ∃ name, file = .lit name ∧ fit name) ∧
      file.MakesOnly fit ∧ definesMakeOnly fit define

def definesMakeOnly (fit : String → Prop) : Defines → Prop
  | .nil => True
  | .cons _ value rest => value.MakesOnly fit ∧ definesMakeOnly fit rest

end

def TextMakesOnly (fit : String → Prop) (cs : List Char) : Prop :=
  ∀ e, .expr e ∈ segments cs → e.MakesOnly fit

def NamesRanked (fs : FileSystem) (root : Path) (rank : Location → Option Nat)
    (allowed : Nat → Prop) (name : String) : Prop :=
  fs.exists? (root.join (Path.ofString name)) = .ok false ∨
    ∃ l e k, fs.find .target (root.join (Path.ofString name)) = .ok (.there l e) ∧
      rank l = some k ∧ allowed k

/-- Each file that has a rank makes files of smaller ranks only. -/
def Descends (fs : FileSystem) (root : Path) (rank : Location → Option Nat) : Prop :=
  ∀ l k bytes mode s, rank l = some k → fs.get? l = some (.file bytes mode) →
    Text.Utf8.decode bytes = .ok s → TextMakesOnly (NamesRanked fs root rank (· < k)) s.toList

/-- The expansion ends, with a result or with a failure other than that of nesting too deep, and it
takes no more than `depth` expansions within one another, itself included. -/
structure Ends (fs : FileSystem) (depth : Nat) (ctx : Context) (cs : List Char) : Prop where
  failure : ∀ e, (expand fs ctx cs).result = .error e → e.isForeseen = true ∨
    ∃ p : Path, fs.exists? p = .error .nameTooLong ∧ e = .obstacle (.refused .nameTooLong p.text)
  nested : ∀ deeper, depth ≤ deeper → expandAt fs deeper ctx cs = expand fs ctx cs

def Firm {α : Type} (r r' : Rendering α) : Prop :=
  r' = r ∧ r.result ≠ .error .tooDeep

section

variable {α β : Type} {r r' : Rendering α} {f f' : α → Rendering β} {fs : FileSystem}
  {root path : Path} {rank : Location → Option Nat} {ctx : Context} {fit fit' : String → Prop}
  {expand expand' : Expander} {e : Failure} {cs : List Char}

lemma firm_refl (h : r.result ≠ .error .tooDeep) : Firm r r := ⟨rfl, h⟩

lemma firm_pure (a : α) : Firm (pure a : Rendering α) (pure a) :=
  firm_refl fun h => by cases h

lemma firm_write (cs : List Char) : Firm (Rendering.write cs) (Rendering.write cs) :=
  firm_refl fun h => by cases h

lemma firm_fail (h : e ≠ .tooDeep) : Firm (.fail e : Rendering α) (.fail e) :=
  firm_refl fun he => h (Except.error.inj he)

lemma Firm.bind (h : Firm r r') (hf : ∀ a, r.result = .ok a → Firm (f a) (f' a)) :
    Firm (r >>= f) (r' >>= f') := by
  obtain ⟨rfl, hr⟩ := h
  cases ha : r'.result with
  | error e =>
    rw [Firm, Rendering.bind_eq, Rendering.bind_eq, ha]
    exact ⟨rfl, fun he => hr (ha.trans (congrArg Except.error (Except.error.inj he)))⟩
  | ok a =>
    obtain ⟨heq, hdeep⟩ := hf a ha
    rw [Firm, Rendering.bind_of_ok ha, Rendering.bind_of_ok ha, heq]
    exact ⟨rfl, hdeep⟩

lemma Firm.capture (h : Firm r r') : Firm r.capture r'.capture := by
  obtain ⟨rfl, hr⟩ := h
  refine firm_refl fun he => hr ?_
  rw [Rendering.capture] at he
  cases ha : r'.result with
  | error e =>
    rw [ha] at he
    exact congrArg Except.error (Except.error.inj he)
  | ok a =>
    rw [ha] at he
    cases he

lemma Firm.blame (h : Firm r r') (path : Path) :
    Firm (r.mapFailure (blame .make path)) (r'.mapFailure (blame .make path)) := by
  obtain ⟨rfl, hr⟩ := h
  refine firm_refl fun he => hr ?_
  rw [Rendering.mapFailure] at he
  cases ha : r'.result with
  | ok a =>
    rw [ha] at he
    cases he
  | error d =>
    rw [ha] at he
    have hd : Expr.blame .make path d = .tooDeep := Except.error.inj he
    cases d with
    | tooDeep => rfl
    | obstacle o =>
      rw [Expr.blame] at hd
      split_ifs at hd
    | _ => cases hd

lemma firm_present (fs : FileSystem) (path : Path) : Firm (present fs path) (present fs path) := by
  rw [present]
  cases fs.exists? path with
  | ok b => exact firm_pure b
  | error r => exact firm_fail (by simp)

lemma firm_includeFile (fs : FileSystem) (path : Path) :
    Firm (includeFile fs path) (includeFile fs path) := by
  refine (firm_present fs path).bind fun b _ => ?_
  cases b with
  | false => exact firm_pure false
  | true =>
    rw [if_pos rfl]
    cases readText fs path with
    | error o => exact firm_fail (by simp)
    | ok cs => exact (firm_write cs).bind fun _ _ => firm_pure true

def FirmOn (fs : FileSystem) (root : Path) (fit : String → Prop) (expand expand' : Expander) :
    Prop :=
  ∀ name ctx cs, fit name → ctx.root = root →
    readText fs (root.join (Path.ofString name)) = .ok cs → Firm (expand ctx cs) (expand' ctx cs)

lemma firm_makeFile (h : ∀ cs, readText fs path = .ok cs → Firm (expand ctx cs) (expand' ctx cs)) :
    Firm (makeFile fs expand ctx path) (makeFile fs expand' ctx path) := by
  rw [makeFile, makeFile]
  apply Firm.blame
  cases hr : readText fs path with
  | error o => exact firm_fail (by simp)
  | ok cs => exact (h cs hr).bind fun _ _ => firm_pure true

mutual

lemma evaluate_firm (hexp : FirmOn fs root fit expand expand') (hroot : ctx.root = root) :
    (e : Expr) → e.MakesOnly fit → Firm (evaluate fs expand ctx e) (evaluate fs expand' ctx e)
  | .absent, _ => by
    rw [evaluate, evaluate]
    exact firm_pure false
  | .var name, _ => by
    rw [evaluate, evaluate]
    cases ctx.vars.get? name with
    | none => exact firm_pure false
    | some value => exact (firm_write _).bind fun _ _ => firm_pure true
  | .lit text, _ => by
    rw [evaluate, evaluate]
    exact (firm_write _).bind fun _ _ => firm_pure true
  | .seq first second, hmakes => by
    rw [evaluate, evaluate]
    exact (evaluate_firm hexp hroot first hmakes.1).bind fun p _ =>
      (evaluate_firm hexp hroot second hmakes.2).bind fun q _ => firm_pure _
  | .equals left right, hmakes => by
    rw [evaluate, evaluate]
    refine (evaluate_firm hexp hroot left hmakes.1).capture.bind fun l _ =>
      (evaluate_firm hexp hroot right hmakes.2).capture.bind fun r _ => ?_
    by_cases h : l = r
    · rw [if_pos h]
      exact (firm_write _).bind fun _ _ => firm_pure true
    · rw [if_neg h]
      exact firm_pure false
  | .cond test success failure, hmakes => by
    rw [evaluate, evaluate]
    refine (evaluate_firm hexp hroot test hmakes.1).capture.bind fun t _ => ?_
    by_cases h : t.2 = true
    · rw [if_pos h, if_pos h]
      exact evaluate_firm hexp hroot success hmakes.2.1
    · rw [if_neg h, if_neg h]
      exact evaluate_firm hexp hroot failure hmakes.2.2
  | .orElse first fallback, hmakes => by
    rw [evaluate, evaluate]
    refine (evaluate_firm hexp hroot first hmakes.1).capture.bind fun t _ => ?_
    by_cases h : t.2 = true
    · rw [if_pos h, if_pos h]
      exact (firm_write _).bind fun _ _ => firm_pure true
    · rw [if_neg h, if_neg h]
      exact evaluate_firm hexp hroot fallback hmakes.2
  | .call function file define undefine, hmakes => by
    obtain ⟨hmade, hfile, hdefine⟩ := hmakes
    have hname := (evaluate_firm hexp hroot file hfile).capture
    rw [evaluate, evaluate]
    cases hf : Function.ofName? function with
    | none => exact firm_fail (by simp)
    | some f =>
      cases f with
      | make =>
        obtain ⟨name, rfl, hfit⟩ := hmade hf
        refine hname.bind fun n hn => (firm_present fs _).bind fun b _ => ?_
        cases b with
        | false => exact firm_pure false
        | true =>
          rw [if_pos rfl, if_pos rfl]
          refine (evaluateDefines_firm hexp hroot define hdefine).bind fun values _ => ?_
          have hpath : locate ctx n.1 = root.join (Path.ofString name) := by
            obtain rfl : (name.toList ++ [], true) = n := Except.ok.inj hn
            rw [locate, hroot, List.append_nil, String.ofList_toList]
          rw [hpath]
          exact firm_makeFile fun cs hcs => hexp name _ cs hfit hroot hcs
      | «exists» | «include» =>
        dsimp only
        by_cases h : define.isEmpty ∧ undefine.isEmpty
        · rw [if_pos h, if_pos h]
          refine hname.bind fun n _ => ?_
          first
            | exact firm_present fs _
            | exact firm_includeFile fs _
        · rw [if_neg h, if_neg h]
          exact firm_fail (by simp)

lemma evaluateDefines_firm (hexp : FirmOn fs root fit expand expand') (hroot : ctx.root = root) :
    (ds : Defines) → definesMakeOnly fit ds →
      Firm (evaluateDefines fs expand ctx ds) (evaluateDefines fs expand' ctx ds)
  | .nil, _ => by
    rw [evaluateDefines, evaluateDefines]
    exact firm_pure []
  | .cons name value rest, hmakes => by
    rw [evaluateDefines, evaluateDefines]
    exact (evaluate_firm hexp hroot value hmakes.1).capture.bind fun v _ =>
      (evaluateDefines_firm hexp hroot rest hmakes.2).bind fun vs _ => firm_pure _

end

mutual

lemma MakesOnly.mono (hfit : ∀ name, fit name → fit' name) :
    (e : Expr) → e.MakesOnly fit → e.MakesOnly fit'
  | .absent, _ | .var _, _ | .lit _, _ => trivial
  | .seq a b, h | .equals a b, h | .orElse a b, h =>
    ⟨MakesOnly.mono hfit a h.1, MakesOnly.mono hfit b h.2⟩
  | .cond test success failure, h =>
    ⟨MakesOnly.mono hfit test h.1, MakesOnly.mono hfit success h.2.1,
      MakesOnly.mono hfit failure h.2.2⟩
  | .call function file define undefine, h => by
    refine ⟨fun hf => ?_, MakesOnly.mono hfit file h.2.1, definesMakeOnly_mono hfit define h.2.2⟩
    obtain ⟨name, hname, hn⟩ := h.1 hf
    exact ⟨name, hname, hfit name hn⟩

lemma definesMakeOnly_mono (hfit : ∀ name, fit name → fit' name) :
    (ds : Defines) → definesMakeOnly fit ds → definesMakeOnly fit' ds
  | .nil, _ => trivial
  | .cons _ value rest, h =>
    ⟨MakesOnly.mono hfit value h.1, definesMakeOnly_mono hfit rest h.2⟩

end

lemma TextMakesOnly.mono (h : TextMakesOnly fit cs) (hfit : ∀ name, fit name → fit' name) :
    TextMakesOnly fit' cs :=
  fun e he => MakesOnly.mono hfit e (h e he)

lemma NamesRanked.mono {allowed allowed' : Nat → Prop} {name : String}
    (h : NamesRanked fs root rank allowed name) (ha : ∀ k, allowed k → allowed' k) :
    NamesRanked fs root rank allowed' name := by
  rcases h with h | ⟨l, e, k, hl, hk, hallowed⟩
  · exact .inl h
  · exact .inr ⟨l, e, k, hl, hk, ha k hallowed⟩

lemma expandSegments_firm {eval eval' : Expr → Rendering Bool} {ss : List Segment}
    (h : ∀ e, .expr e ∈ ss → Firm (eval e) (eval' e)) :
    Firm (expandSegments eval ss) (expandSegments eval' ss) := by
  induction ss with
  | nil => exact firm_pure ()
  | cons s ss ih =>
    have hrest := ih fun e he => h e (List.mem_cons_of_mem s he)
    cases s with
    | char c => exact (firm_write [c]).bind fun _ _ => hrest
    | expr e => exact (h e List.mem_cons_self).bind fun _ _ => hrest
    | fault f => exact firm_fail (by simp)

lemma Descends.read {l : Location} {entry : Entry} {k : Nat} (h : Descends fs root rank)
    (hl : fs.find .target path = .ok (.there l entry)) (hk : rank l = some k)
    (hcs : readText fs path = .ok cs) : TextMakesOnly (NamesRanked fs root rank (· < k)) cs := by
  rw [readText, FileSystem.readFile, FileSystem.targetAt, hl] at hcs
  cases entry with
  | directory => cases hcs
  | link target | pipe =>
    obtain rfl : [] = cs := Except.ok.inj hcs
    intro e he
    cases he
  | file bytes mode =>
    dsimp only at hcs
    cases hd : Text.Utf8.decode bytes with
    | error f =>
      rw [hd] at hcs
      cases hcs
    | ok s =>
      rw [hd] at hcs
      obtain rfl := Except.ok.inj hcs
      exact h l k bytes mode s hk (FileSystem.get?_of_there hl) hd

lemma expandAt_firm {d d' : Nat} (hexp : FirmOn fs root fit (expandAt fs d) (expandAt fs d'))
    (hroot : ctx.root = root) (hcs : TextMakesOnly fit cs) :
    Firm (expandAt fs (d + 1) ctx cs) (expandAt fs (d' + 1) ctx cs) :=
  expandSegments_firm fun e he => evaluate_firm hexp hroot e (hcs e he)

lemma Descends.firmOn (h : Descends fs root rank) {d d' : Nat} (hle : d ≤ d') :
    FirmOn fs root (NamesRanked fs root rank (· < d)) (expandAt fs d) (expandAt fs d') := by
  induction d generalizing d' with
  | zero =>
    rintro name ctx cs (hmissing | ⟨l, entry, k, -, -, hlt⟩) - hread
    · cases hmissing.symm.trans (exists?_of_readText hread)
    · exact absurd hlt (Nat.not_lt_zero k)
  | succ d ih =>
    obtain ⟨d', rfl⟩ := Nat.exists_eq_add_one_of_ne_zero (Nat.ne_zero_of_lt hle)
    rintro name ctx cs (hmissing | ⟨l, entry, k, hl, hk, hlt⟩) hroot hread
    · cases hmissing.symm.trans (exists?_of_readText hread)
    · apply expandAt_firm (ih (Nat.le_of_succ_le_succ hle)) hroot
      refine (h.read hl hk hread).mono fun n hn => hn.mono fun j hj => ?_
      exact hj.trans_le (Nat.le_of_lt_succ hlt)

def entriesBelow (fs : FileSystem) (rank : Location → Option Nat) (k : Nat) : Nat :=
  (fs.entries.keys.toFinset.filter fun l => (rank l).any (· < k)).card

lemma entriesBelow_le (fs : FileSystem) (rank : Location → Option Nat) (k : Nat) :
    entriesBelow fs rank k ≤ fs.entries.size :=
  calc entriesBelow fs rank k
    _ ≤ fs.entries.keys.toFinset.card := Finset.card_filter_le _ _
    _ ≤ fs.entries.keys.length := List.toFinset_card_le _
    _ = fs.entries.size := Std.ExtTreeMap.length_keys

lemma entriesBelow_lt {l : Location} {entry : Entry} {j k : Nat} (hl : fs.get? l = some entry)
    (hj : rank l = some j) (hlt : j < k) : entriesBelow fs rank j < entriesBelow fs rank k := by
  apply Finset.card_lt_card
  have hsub : ∀ m ∈ fs.entries.keys.toFinset,
      (rank m).any (· < j) = true → (rank m).any (· < k) = true := by
    intro m _ hm
    cases hi : rank m with
    | none => simp [hi] at hm
    | some i =>
      have hij : i < j := by simpa [hi] using hm
      simp [hij.trans hlt]
  have hmem : l ∈ fs.entries.keys.toFinset := by
    have hl' : fs.entries[l]? = some entry := hl
    simp [← Std.ExtTreeMap.isSome_getElem?_iff_mem, hl']
  refine (Finset.ssubset_iff_of_subset (Finset.monotone_filter_right _ hsub)).mpr ⟨l, ?_, ?_⟩
  · exact Finset.mem_filter.mpr ⟨hmem, by simp [hj, hlt]⟩
  · simp [hj]

def denseRank (fs : FileSystem) (rank : Location → Option Nat) (l : Location) : Option Nat :=
  (rank l).map (entriesBelow fs rank)

lemma NamesRanked.dense {k : Nat} {name : String} (h : NamesRanked fs root rank (· < k) name) :
    NamesRanked fs root (denseRank fs rank) (· < entriesBelow fs rank k) name := by
  rcases h with h | ⟨l, e, j, hl, hj, hlt⟩
  · exact .inl h
  · have hdense : denseRank fs rank l = some (entriesBelow fs rank j) := by
      rw [denseRank, hj, Option.map_some]
    exact .inr ⟨l, e, _, hl, hdense, entriesBelow_lt (FileSystem.get?_of_there hl) hj hlt⟩

lemma Descends.dense (h : Descends fs root rank) : Descends fs root (denseRank fs rank) := by
  intro l k bytes mode s hk hl hs
  obtain ⟨j, hj, rfl⟩ := Option.map_eq_some_iff.mp hk
  exact (h l j bytes mode s hj hl hs).mono fun name => NamesRanked.dense

lemma Descends.firm {k d : Nat} (h : Descends fs root rank) (hroot : ctx.root = root)
    (hcs : TextMakesOnly (NamesRanked fs root rank (· < k)) cs) (hd : k + 1 ≤ d) :
    Firm (expandAt fs (k + 1) ctx cs) (expandAt fs d ctx cs) := by
  obtain ⟨d, rfl⟩ := Nat.exists_eq_add_one_of_ne_zero (Nat.ne_zero_of_lt hd)
  exact expandAt_firm (h.firmOn (Nat.le_of_succ_le_succ hd)) hroot hcs

lemma Descends.ends {k : Nat} (h : Descends fs root rank) (hroot : ctx.root = root)
    (hcs : TextMakesOnly (NamesRanked fs root rank (· < k)) cs) : Ends fs (k + 1) ctx cs := by
  have hdense {d : Nat} : entriesBelow fs rank k + 1 ≤ d →
      Firm (expandAt fs (entriesBelow fs rank k + 1) ctx cs) (expandAt fs d ctx cs) :=
    h.dense.firm hroot (hcs.mono fun name => NamesRanked.dense)
  have hle : entriesBelow fs rank k + 1 ≤ depthLimit fs := by
    have hsize := entriesBelow_le fs rank k
    rw [depthLimit]
    omega
  obtain ⟨hlimit, hdeep⟩ := hdense hle
  refine ⟨fun e he => ?_, fun deeper hdeeper => ?_⟩
  · rcases expandAt_tame fs (depthLimit fs) ctx cs e he with hf | rfl | ho
    · exact .inl (Failure.isForeseen_of_isOfExpression hf)
    · exact absurd (hlimit ▸ he) hdeep
    · exact .inr ho
  · calc expandAt fs deeper ctx cs
      _ = expandAt fs (k + 1) ctx cs := (h.firm hroot hcs hdeeper).1
      _ = expandAt fs (max (k + 1) (entriesBelow fs rank k + 1)) ctx cs :=
        (h.firm hroot hcs (Nat.le_max_left _ _)).1.symm
      _ = expandAt fs (entriesBelow fs rank k + 1) ctx cs := (hdense (Nat.le_max_right _ _)).1
      _ = expand fs ctx cs := hlimit.symm

end

def chainText : String :=
  "$\x7b#make('b', n=#make('c'))\x7d"

def chainFiles : FileSystem :=
  ((FileSystem.empty.set ["a"] (.file chainText.toUTF8 0o644)).set
    ["b"] (.file "$\x7bn == #make('d')\x7d".toUTF8 0o644)).set ["c"] (.file "x".toUTF8 0o644)

def chainRank : Location → Option Nat
  | ["a"] => some 1
  | ["b"] | ["c"] => some 0
  | _ => none

lemma chain_text {l : Location} {bytes : ByteArray} {mode : Nat} {s : String} (text : String)
    (htext : chainFiles.get? l = some (.file text.toUTF8 0o644))
    (hl : chainFiles.get? l = some (.file bytes mode)) (hs : Text.Utf8.decode bytes = .ok s) :
    s = text := by
  cases htext.symm.trans hl
  exact (Except.ok.inj ((Text.Utf8.decode_toUTF8 text).symm.trans hs)).symm

lemma chain_descends : Descends chainFiles .here chainRank := by
  intro l k bytes mode s hk hl hs
  have hnamed {name : String} {k j : Nat} (hfind : ∃ e, chainFiles.find .target
      (Path.here.join (Path.ofString name)) = .ok (.there [name] e))
      (hrank : chainRank [name] = some j) (hlt : j < k) :
      NamesRanked chainFiles .here chainRank (· < k) name := by
    obtain ⟨e, he⟩ := hfind
    exact .inr ⟨_, e, j, he, hrank, hlt⟩
  unfold chainRank at hk
  split at hk
  · obtain rfl := Option.some.inj hk
    obtain rfl := chain_text chainText (by decide +kernel) hl hs
    have hsegments : segments chainText.toList =
        [.expr (.call "make" (.lit "b")
          (.cons "n" (.call "make" (.lit "c") .nil []) .nil) [])] := by
      decide +kernel
    intro e he
    rw [hsegments] at he
    obtain rfl := Segment.expr.inj (List.mem_singleton.mp he)
    exact ⟨fun _ => ⟨"b", rfl, hnamed ⟨_, rfl⟩ rfl (by decide)⟩, trivial,
      ⟨fun _ => ⟨"c", rfl, hnamed ⟨_, rfl⟩ rfl (by decide)⟩, trivial, trivial⟩, trivial⟩
  · obtain rfl := chain_text "$\x7bn == #make('d')\x7d" (by decide +kernel) hl hs
    have hsegments : segments "$\x7bn == #make('d')\x7d".toList =
        [.expr (.equals (.var "n") (.call "make" (.lit "d") .nil []))] := by
      decide +kernel
    intro e he
    rw [hsegments] at he
    obtain rfl := Segment.expr.inj (List.mem_singleton.mp he)
    exact ⟨trivial, fun _ => ⟨"d", rfl, .inl rfl⟩, trivial, trivial⟩
  · obtain rfl := chain_text "x" (by decide +kernel) hl hs
    have hsegments : segments "x".toList = [.char 'x'] := by decide +kernel
    intro e he
    rw [hsegments] at he
    cases List.mem_singleton.mp he
  · cases hk

lemma chainRank_le {l : Location} {k : Nat} (h : chainRank l = some k) : k ≤ 1 := by
  unfold chainRank at h
  split at h <;> cases h <;> decide

-- One level less is too few.
example : (expandAt chainFiles 2 ⟨∅, .here⟩ "$\x7b#make('a')\x7d".toList).result =
    .error .tooDeep := by
  decide +kernel

end Scaffold.Expr
