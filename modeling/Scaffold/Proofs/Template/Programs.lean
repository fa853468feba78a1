import Scaffold.Proofs.Paths
import Scaffold.Proofs.Template.Phases
import Scaffold.Proofs.Walk.Agreement

/-! The program of a command that is given by a path. It is handed over as a path below the template
and looked up by a process that works in the destination. -/

namespace Scaffold

namespace FileSystem

def programFor? (fs : FileSystem) (cwd : Path) (program : String) : Option (Except Refusal Spot) :=
  if '/' ∈ program.toList then
    match fs.find .target cwd with
    | .ok (.there D .directory) => some ((fs.workingIn D).find .target (Path.ofString program))
    | _ => none
  else none

lemma programFor?_of_leads {fs : FileSystem} {cwd : Path} {D : Location} {program : String}
    (hcwd : fs.Leads cwd D) (hslash : '/' ∈ program.toList) :
    fs.programFor? cwd program =
      some ((fs.workingIn D).find .target (Path.ofString program)) := by
  rw [programFor?, if_pos hslash, show fs.find .target cwd = _ from hcwd]

end FileSystem

namespace Hook

def GivenByPath (program : String) : Prop :=
  let p := Path.ofString program
  program.toList.head? = some '.' ∨ 1 < p.names.length + if p.isAbsolute then 1 else 0

lemma programPath_of_path {program : String} (h : GivenByPath program) (root : Path) :
    programPath program root = (root.join (Path.ofString program)).text := by
  rw [programPath]
  exact if_pos h

end Hook

namespace Template

open FileSystem

section

variable {h : Host} {ctx : Context} {dest p : Path} {text line w : String} {ws : List String}

lemma slash_mem_text (hp : p.isAbsolute = true ∨ 1 < p.names.length) : '/' ∈ p.text.toList := by
  obtain ⟨anchor, names⟩ := p
  cases anchor with
  | relative =>
    rcases hp with hp | hp
    · cases hp
    · obtain ⟨k, rest, rfl⟩ := List.exists_cons_of_length_pos (Nat.zero_lt_of_lt hp)
      obtain ⟨n, above, rfl⟩ := List.exists_cons_of_length_pos (Nat.lt_of_succ_lt_succ hp)
      exact Path.slash_mem_text k n above
  | root | doubleRoot =>
    rw [Path.text, if_neg (by simp [Path.here])]
    simp [Path.anchorText]

lemma arguments_of_path (hx : Expr.expandString h.files ctx text = .ok line)
    (hw : Hook.commandWords line = .ok (w :: ws)) (hpath : Hook.GivenByPath w) :
    arguments h.files ctx text = .ok ((ctx.root.join (Path.ofString w)).text :: ws) := by
  simp only [arguments, hx, hw, List.headD_cons, List.tail_cons, Hook.programPath_of_path hpath]

end

/-- The program found from the destination `D` is the one of the template if its path is absolute,
or if the load works in `D` itself and the path is more than one name. -/
theorem perform_runs_from_template {h : Host} {ctx : Context} {dest : Path} {D : Location}
    {text line w : String} {ws : List String} (ht : text ≠ "")
    (hx : Expr.expandString h.files ctx text = .ok line)
    (hw : Hook.commandWords line = .ok (w :: ws)) (hpath : Hook.GivenByPath w)
    (hdest : h.files.Leads dest D)
    (hplace : (ctx.root.join (Path.ofString w)).isAbsolute = true ∨
      D = h.files.workDir ∧ 1 < (ctx.root.join (Path.ofString w)).names.length) :
    ∃ program, (perform (some text) ctx dest h).2.launches =
        h.launches ++ [⟨program :: ws, dest, h.env.merge ctx.vars⟩] ∧
      h.files.programFor? dest program =
        some (h.files.find .target (ctx.root.join (Path.ofString w))) := by
  have hlaunch : launchOf? h ctx dest (some text) =
      some ⟨(ctx.root.join (Path.ofString w)).text :: ws, dest, h.env.merge ctx.vars⟩ :=
    launchOf?_eq_some_iff.mpr ⟨text, _, rfl, ht, arguments_of_path hx hw hpath, rfl⟩
  have hfind : (h.files.workingIn D).find .target (ctx.root.join (Path.ofString w)) =
      h.files.find .target (ctx.root.join (Path.ofString w)) :=
    find_workingIn (hplace.imp_right And.left)
  refine ⟨_, by rw [launches_perform, hlaunch]; rfl, ?_⟩
  rw [programFor?_of_leads hdest (slash_mem_text (hplace.imp_right And.right)),
    Path.ofString_text, hfind]

def scriptedHost (workDir : Location) : Host where
  files := { ((FileSystem.empty.set ["t"] .directory).set ["o"] .directory).set ["x", "t"]
    (.file "run".toUTF8 0o755) with workDir := workDir }
  env := ∅
  processes := []
  launches := []

theorem perform_runs_from_template_absolute :
    ∃ program, (perform (some "./x y") ⟨∅, Path.ofString "/t"⟩ (Path.ofString "o")
        (scriptedHost [])).2.launches =
        [⟨[program, "y"], Path.ofString "o", (∅ : Bindings String).merge ∅⟩] ∧
      (scriptedHost []).files.programFor? (Path.ofString "o") program =
        some (.ok (.there ["x", "t"] (.file "run".toUTF8 0o755))) := by
  have hfind : (scriptedHost []).files.find .target (Path.ofString "/t/x") =
      .ok (.there ["x", "t"] (.file "run".toUTF8 0o755)) := by
    decide +kernel
  rw [← hfind]
  have hx : Expr.expandString (scriptedHost []).files ⟨∅, Path.ofString "/t"⟩ "./x y" =
      .ok "./x y" := by
    decide +kernel
  have hw : Hook.commandWords "./x y" = .ok ["./x", "y"] := by decide +kernel
  have hdest : (scriptedHost []).files.Leads (Path.ofString "o") ["o"] := by decide +kernel
  exact perform_runs_from_template (by decide) hx hw (.inl (by decide)) hdest
    (.inl (by decide +kernel))

theorem perform_misses_template :
    (perform (some "./x") ⟨∅, Path.ofString "t"⟩ (Path.ofString "o")
        (scriptedHost [])).2.launches.map Launch.args = [["t/x"]] ∧
      (scriptedHost []).files.programFor? (Path.ofString "o") "t/x" = some (.error .noEntry) ∧
      (scriptedHost []).files.find .target (Path.ofString "t/x") =
        .ok (.there ["x", "t"] (.file "run".toUTF8 0o755)) := by
  decide +kernel

end Template

end Scaffold
