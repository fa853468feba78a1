import Scaffold.Proofs.Expr.Assuming
import Scaffold.Proofs.Expr.Delimited
import Scaffold.Proofs.Expr.Sources
import Scaffold.Proofs.FileSystem.Reaching

/-! A variable that no expression reads does not matter. The variables of an expression that was
read from a text stand in that text, so that a file can read no variable but those whose names it
contains. -/

namespace Scaffold

def FileSystem.HasText (fs : FileSystem) (s : String) : Prop :=
  ∃ loc bytes mode, fs.get? loc = some (.file bytes mode) ∧ Text.Utf8.decode bytes = .ok s

namespace Expr

section

variable {e : Expr} {n name : String}

lemma vars_append (a b : Expr) : (a.append b).vars = a.vars ++ b.vars := by
  cases a <;> cases b <;> simp [append, vars]

lemma mem_definesVars_set {d : Defines} (h : n ∈ definesVars (d.set name e)) :
    n ∈ definesVars d ∨ n ∈ e.vars := by
  cases d with
  | nil => exact .inr (by simpa [Defines.set, definesVars] using h)
  | cons m v rest =>
    by_cases hm : m = name
    · rw [Defines.set, if_pos hm, definesVars, List.mem_append] at h
      rw [definesVars, List.mem_append]
      rcases h with h | h
      · exact .inr h
      · exact .inl (.inr h)
    · rw [Defines.set, if_neg hm, definesVars, List.mem_append] at h
      rw [definesVars, List.mem_append]
      rcases h with h | h
      · exact .inl (.inl h)
      · exact (mem_definesVars_set h).imp_left .inr

lemma closed_vars (p : String → Prop) : Closed p fun e => ∀ n ∈ e.vars, p n where
  absent := by simp [vars]
  var h := by simpa [vars] using h
  lit text := by simp [vars]
  append {a b} ha hb := by simpa only [vars_append] using List.forall_mem_append.mpr ⟨ha, hb⟩
  equals hl hr := List.forall_mem_append.mpr ⟨hl, hr⟩
  cond ht hs hf := List.forall_mem_append.mpr ⟨List.forall_mem_append.mpr ⟨ht, hs⟩, hf⟩
  orElse hp hf := List.forall_mem_append.mpr ⟨hp, hf⟩
  call _ hf := by simpa [OpenCall.close, vars, definesVars] using hf
  set hc _ hv := by
    obtain ⟨hfile, hdefine⟩ := List.forall_mem_append.mp hc
    refine List.forall_mem_append.mpr ⟨hfile, fun n hn => ?_⟩
    exact (mem_definesVars_set hn).elim (hdefine n) (hv n)
  unset hc _ := hc

end

section

variable {cs : List Char} {e : Expr} {n : String}

lemma infix_of_ofText {s : String} (h : ofText s = .ok e) (hn : n ∈ e.vars) :
    n.toList <:+: s.toList :=
  (closed_vars fun n => n.toList <:+: s.toList).of_ofText h (fun _ _ hin => hin) n hn

def Scanner.Follows (past : List Char) : Scanner → Prop
  | .marker r => ∃ q, q <:+ past ∧ Reader.start.reach q = some r
  | _ => True

lemma Scanner.afterFeed_follows {past q : List Char} {r : Reader} (hq : q <:+ past)
    (hr : Reader.start.reach q = some r) (c : Char) :
    (∀ e, .expr e ∈ (Scanner.afterFeed (r.feed .brace c)).1 →
      ofText (String.ofList q) = .ok e) ∧
    ∀ s, (Scanner.afterFeed (r.feed .brace c)).2 = some s → s.Follows (past ++ [c]) := by
  cases hf : r.feed .brace c with
  | more r' =>
    refine ⟨by simp [Scanner.afterFeed], ?_⟩
    rintro s ⟨⟩
    obtain ⟨before, rfl⟩ := hq
    refine ⟨q ++ [c], ⟨before, (List.append_assoc _ _ _).symm⟩, ?_⟩
    have hnext := (Reader.feed_eq_more_iff .brace r r' c).mp hf
    rw [Reader.reach_append, hr, Option.bind_some, Reader.reach_cons, hnext]
    rfl
  | closed e' =>
    refine ⟨fun e he => ?_, ?_⟩
    · obtain rfl : e = e' := by simpa [Scanner.afterFeed] using he
      obtain ⟨-, hfin⟩ := (Reader.feed_brace_eq_closed_iff r c e).mp hf
      exact (Reader.run_text_iff _ _ e).mpr ⟨r, by simpa using hr, hfin⟩
    · rintro s ⟨⟩
      trivial
  | failed f => exact ⟨by simp [Scanner.afterFeed], by simp [Scanner.afterFeed]⟩

lemma Scanner.step_follows {past : List Char} {s : Scanner} (h : s.Follows past) (c : Char) :
    (∀ e, .expr e ∈ (s.step c).1 → ∃ q, q <:+ past ∧ ofText (String.ofList q) = .ok e) ∧
    ∀ t, (s.step c).2 = some t → t.Follows (past ++ [c]) := by
  cases s with
  | text =>
    rw [step]
    split <;> exact ⟨by simp, by rintro t ⟨⟩; trivial⟩
  | dollar =>
    rw [step]
    split_ifs <;> exact ⟨by simp, by rintro t ⟨⟩; trivial⟩
  | brace =>
    obtain ⟨hexpr, hnext⟩ := Scanner.afterFeed_follows (List.nil_suffix (l := past)) rfl c
    exact ⟨fun e he => ⟨[], List.nil_suffix, hexpr e he⟩, hnext⟩
  | marker r =>
    obtain ⟨q, hq, hr⟩ := h
    obtain ⟨hexpr, hnext⟩ := Scanner.afterFeed_follows hq hr c
    exact ⟨fun e he => ⟨q, hq, hexpr e he⟩, hnext⟩

lemma ofText_of_mem_segmentsFrom {past : List Char} {s : Scanner} (hs : s.Follows past)
    (he : .expr e ∈ segmentsFrom s cs) :
    ∃ q, q <:+: past ++ cs ∧ ofText (String.ofList q) = .ok e := by
  -- On the text that is left. Each character goes from it to the past.
  induction cs generalizing s past with
  | nil =>
    cases s with
    | marker r =>
      cases hr : r.finish .brace with
      | ok e' => exact absurd hr (r.finish_brace e')
      | error f => simp [segmentsFrom, Scanner.finish, hr] at he
    | _ => simp [segmentsFrom, Scanner.finish] at he
  | cons c cs ih =>
    obtain ⟨hexpr, hnext⟩ := Scanner.step_follows hs c
    have hhere : .expr e ∈ (s.step c).1 →
        ∃ q, q <:+: past ++ c :: cs ∧ ofText (String.ofList q) = .ok e := by
      intro hin
      obtain ⟨q, hq, hread⟩ := hexpr e hin
      exact ⟨q, hq.isInfix.trans (List.prefix_append past _).isInfix, hread⟩
    rw [segmentsFrom] at he
    rcases hc : s.step c with ⟨out, _ | t⟩
    · rw [hc] at he hhere
      exact hhere he
    · rw [hc] at he hhere hnext
      rcases List.mem_append.mp he with he | he
      · exact hhere he
      · simpa using ih (hnext t rfl) he

lemma infix_of_mem_segments (he : .expr e ∈ segments cs) (hn : n ∈ e.vars) : n.toList <:+: cs := by
  have hstart : Scanner.text.Follows [] := trivial
  obtain ⟨q, hq, hread⟩ := ofText_of_mem_segmentsFrom hstart he
  exact (by simpa using infix_of_ofText hread hn : n.toList <:+: q).trans hq

end

section

variable {fs : FileSystem} {ctx ctx' : Context} {path : Path} {cs : List Char} {x : String}

lemma text_of_readText (h : readText fs path = .ok cs) :
    cs = [] ∨ ∃ s, fs.HasText s ∧ s.toList = cs := by
  rw [readText, FileSystem.readFile, FileSystem.targetAt] at h
  rcases hf : fs.find .target path with r | (⟨l, entry⟩ | l)
  · rw [hf] at h
    cases h
  · rw [hf] at h
    obtain ⟨l', hspot⟩ := FileSystem.find_eq_spotAt hf
    obtain ⟨rfl, hget⟩ := FileSystem.spotAt_eq_there hspot.symm
    cases entry with
    | directory => cases h
    -- What is neither file nor directory is read as an empty text.
    | link | pipe =>
      cases h
      exact .inl rfl
    | file bytes mode =>
      dsimp only at h
      cases hd : Text.Utf8.decode bytes with
      | error f =>
        rw [hd] at h
        cases h
      | ok s =>
        rw [hd] at h
        cases h
        exact .inr ⟨s, ⟨_, bytes, mode, hget, hd⟩, rfl⟩
  · rw [hf] at h
    cases h

lemma expandAt_respectsOn (hfs : ∀ s, fs.HasText s → ¬ x.toList <:+: s.toList) (depth : Nat) :
    (expandAt fs depth).RespectsOn fs (· ≠ x) := by
  induction depth with
  | zero => exact fun _ _ _ _ _ _ => rfl
  | succ depth ih =>
    intro ctx ctx' path cs hread h
    refine expandSegments_congr fun e he => evaluate_agreesOn ih h e fun n hn hx => ?_
    -- A variable of the file that is called `x` would stand in its text by that name.
    rcases text_of_readText hread with rfl | ⟨s, hs, rfl⟩
    · cases he
    · exact hfs s hs (hx ▸ infix_of_mem_segments he hn)

lemma agreesOn_of_knows {value : Option String} (h : ctx.Knows x value ctx') :
    ctx.AgreesOn (· ≠ x) ctx' :=
  ⟨h.root, fun n hn => by rw [h.get?, if_neg hn]⟩

end

theorem render_unused (fs : FileSystem) (ctx : Context) (e : Expr) (x : String)
    (he : x ∉ e.vars) (hfs : ∀ s, fs.HasText s → ¬ x.toList <:+: s.toList) :
    render fs { ctx with vars := ctx.vars.erase x } e = render fs ctx e ∧
      ∀ text, render fs { ctx with vars := ctx.vars.insert x text } e = render fs ctx e := by
  have hread : ∀ n ∈ e.vars, n ≠ x := fun n hn hx => he (hx ▸ hn)
  have hexp := expandAt_respectsOn hfs (depthLimit fs)
  exact ⟨evaluate_agreesOn hexp (agreesOn_of_knows (knows_erase ctx x)) e hread,
    fun text => evaluate_agreesOn hexp (agreesOn_of_knows (knows_insert ctx x text)) e hread⟩

def shoutFile : FileSystem :=
  FileSystem.empty.set ["f"] (.file "${n}!".toUTF8 0o644)

def shoutContext : Context :=
  ⟨.ofList [("k", "b"), ("m", "${k}")], .here⟩

def shout : Expr :=
  .seq (.call "make" (.lit "f") (.cons "n" (.var "m") .nil) []) (.lit "${k}")

lemma text_of_shoutFile {s : String} (h : shoutFile.HasText s) : s = "${n}!" := by
  obtain ⟨loc, bytes, mode, hget, htext⟩ := h
  rw [shoutFile, FileSystem.get?_set _ _ _ _ (by decide) (by decide)] at hget
  by_cases hloc : loc = ["f"]
  · rw [if_pos hloc] at hget
    cases hget
    rw [Text.Utf8.decode_toUTF8] at htext
    exact (Except.ok.inj htext).symm
  · rw [if_neg hloc] at hget
    by_cases hroot : loc = []
    · rw [hroot, FileSystem.get?_root] at hget
      cases hget
    · simp [FileSystem.empty, FileSystem.get?, hroot] at hget

theorem render_unused_shout :
    render shoutFile { shoutContext with vars := shoutContext.vars.erase "k" } shout =
      ⟨"${k}!${k}".toList, .ok true⟩ ∧
    ∀ text, render shoutFile { shoutContext with vars := shoutContext.vars.insert "k" text } shout =
      ⟨"${k}!${k}".toList, .ok true⟩ := by
  have hrender : render shoutFile shoutContext shout = ⟨"${k}!${k}".toList, .ok true⟩ := rfl
  obtain ⟨herase, hinsert⟩ := render_unused shoutFile shoutContext shout "k" (by decide)
    fun s hs => text_of_shoutFile hs ▸ by decide
  exact ⟨herase.trans hrender, fun text => (hinsert text).trans hrender⟩

end Expr

end Scaffold
