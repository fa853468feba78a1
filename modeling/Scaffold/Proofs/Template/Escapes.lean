import Scaffold.Proofs.Template.Layers
import Scaffold.Proofs.Walk.Raising

/-! Which failures leave a load as they come, without being told as a failure of the template: those
of the steps that no handler encloses. -/

namespace Scaffold.Template

open Attempt FileAction FileSystem Walk

/-- The failures of a load that no rule foresees, by the step that fails. -/
inductive Escape (root dest : Path) (caller : Bindings String) (platform : Option String)
    (h : Host) : Failure → Prop
  /-- The path of the manifest cannot be asked for. -/
  | manifest {r : Refusal} (hm : h.files.isFile (root.child manifestName) = .error r) :
      Escape root dest caller platform h (.obstacle (.refused r (root.child manifestName).text))
  /-- Without a manifest, the copy meets a NUL in its own paths. -/
  | copied {e : Failure} (hm : h.files.isFile (root.child manifestName) = .ok false)
      (hc : (copyTree root dest h.files).1 = .error e) (he : RefusesNul [root, dest] e) :
      Escape root dest caller platform h e
  /-- The destination has no name, since it cannot be resolved. -/
  | directory {m : Manifest} {e : Failure}
      (hm : h.files.isFile (root.child manifestName) = .ok true)
      (hl : Manifest.load h.files (root.child manifestName) = .ok m)
      (hd : Variables.directoryName h.files dest = .error e) : Escape root dest caller platform h e
  | default {m : Manifest} {upper : Bindings String} {e : Failure}
      (hm : h.files.isFile (root.child manifestName) = .ok true)
      (hl : Manifest.load h.files (root.child manifestName) = .ok m)
      (hu : Variables.above h.files caller dest platform = .ok upper)
      (hv : m.expandVariables = true ∧
        m.vars.mapM (Expr.expandString h.files ⟨upper, root⟩) = .error e)
      (he : Expr.Strays h.files e) : Escape root dest caller platform h e
  /-- The destination cannot be made before the first command. -/
  | destination {m : Manifest} {ctx : Context} {e : Failure}
      (hm : h.files.isFile (root.child manifestName) = .ok true)
      (hp : plan root dest caller platform h.files = .ok (m, ctx)) (hc : Asked m.preCommand)
      (hd : (makeDirectories dest h.files).1 = .error e) : Escape root dest caller platform h e
  | first {m : Manifest} {ctx : Context} {text : String} {fs : FileSystem} {e : Failure}
      (hm : h.files.isFile (root.child manifestName) = .ok true)
      (hp : plan root dest caller platform h.files = .ok (m, ctx))
      (hd : makeDirectories dest h.files = (.ok (), fs))
      (hc : m.preCommand = some text ∧ text ≠ "")
      (hx : Expr.expandString fs ctx text = .error e) (he : Expr.Strays fs e) :
      Escape root dest caller platform h e
  /-- The walk expands too deep, or gives an entry a name with a NUL. -/
  | walk {m : Manifest} {ctx : Context} {h' : Host} {e : Failure}
      (hm : h.files.isFile (root.child manifestName) = .ok true)
      (hp : plan root dest caller platform h.files = .ok (m, ctx))
      (hb : before m ctx dest h = (.ok (), h'))
      (hw : (materialize m ctx root dest h'.files).1 = .error e) (he : Walk.Escapes e) :
      Escape root dest caller platform h e
  | second {m : Manifest} {ctx : Context} {text : String} {h' : Host} {e : Failure}
      (hm : h.files.isFile (root.child manifestName) = .ok true)
      (hp : plan root dest caller platform h.files = .ok (m, ctx))
      (hw : untilWalked m ctx dest h = (.ok (), h'))
      (hc : m.postCommand = some text ∧ text ≠ "")
      (hx : Expr.expandString h'.files ctx text = .error e) (he : Expr.Strays h'.files e) :
      Escape root dest caller platform h e

section

variable {m : Manifest} {ctx : Context} {root dest : Path} {caller : Bindings String}
  {platform command : Option String} {h : Host} {e : Failure}

lemma hook_raises (line : String) (cwd : Path) (vars : Bindings String) :
    Raises (Hook.run line root cwd vars h) fun e => e.isForeseen = true := by
  rw [Hook.run]
  cases hw : Hook.commandWords line with
  | error d =>
    refine raises_error ?_
    rw [Hook.commandWords] at hw
    split at hw
    · obtain rfl := Except.error.inj hw
      rfl
    · obtain rfl := Except.error.inj hw
      rfl
    · cases hw
  | ok ws =>
    dsimp only
    rcases h.launch _ with ⟨reason | ⟨code, stderr⟩, h'⟩
    · exact raises_error rfl
    · by_cases hcode : code = 0
      · simp only [hcode, if_true]
        exact raises_ok () h'
      · simp only [hcode, if_false]
        exact raises_error rfl

lemma perform_escapes_iff : (perform command ctx dest h).1 = .error e ∧ e.isForeseen = false ↔
    ∃ text, (command = some text ∧ text ≠ "") ∧
      Expr.expandString h.files ctx text = .error e ∧ Expr.Strays h.files e := by
  by_cases hc : Asked command
  swap
  · rw [perform_of_not_asked hc]
    constructor
    · rintro ⟨he, -⟩
      cases he
    · rintro ⟨text, hc', -⟩
      exact absurd ⟨text, hc'⟩ hc
  obtain ⟨text, rfl, ht⟩ := hc
  rw [perform_of_text ht, bind_apply, FileAction.onHost, look]
  cases hx : Expr.expandString h.files ctx text with
  | error d =>
    constructor
    · rintro ⟨he, hf⟩
      obtain rfl := Except.error.inj he
      exact ⟨text, ⟨rfl, ht⟩, hx, (Expr.expandString_failure hx).resolve_left (by simp [hf])⟩
    · rintro ⟨text', ⟨htext, -⟩, hx', he⟩
      obtain rfl := Option.some.inj htext
      obtain rfl := Except.error.inj (hx.symm.trans hx')
      exact ⟨rfl, he.isForeseen⟩
  | ok line =>
    constructor
    · rintro ⟨he, hf⟩
      exact absurd (hook_raises line dest ctx.vars e he) (by simp [hf])
    · rintro ⟨text', ⟨htext, -⟩, hx', -⟩
      obtain rfl := Option.some.inj htext
      cases hx.symm.trans hx'

lemma isForeseen_of_makeDirectories {fs : FileSystem} (hd : (makeDirectories dest fs).1 = .error e) :
    e.isForeseen = false := by
  obtain ⟨r, q, rfl, -⟩ := makeDirectories_refused hd
  rfl

lemma before_escapes_iff : (before m ctx dest h).1 = .error e ∧ e.isForeseen = false ↔
    Asked m.preCommand ∧ (makeDirectories dest h.files).1 = .error e ∨
    ∃ fs text, makeDirectories dest h.files = (.ok (), fs) ∧ (m.preCommand = some text ∧ text ≠ "") ∧
      Expr.expandString fs ctx text = .error e ∧ Expr.Strays fs e := by
  by_cases hc : Asked m.preCommand
  swap
  · rw [before_of_not_asked hc]
    constructor
    · rintro ⟨he, -⟩
      cases he
    · rintro (⟨hc', -⟩ | ⟨fs, text, -, hc', -⟩)
      · exact absurd hc' hc
      · exact absurd ⟨text, hc'⟩ hc
  rw [before_of_asked hc, bind_apply, FileAction.onHost]
  rcases hd : makeDirectories dest h.files with ⟨d | u, fs⟩
  · constructor
    · rintro ⟨he, -⟩
      exact .inl ⟨hc, he⟩
    · rintro (⟨-, he⟩ | ⟨fs', text, hd', -⟩)
      · exact ⟨he, isForeseen_of_makeDirectories (hd ▸ he)⟩
      · cases hd'
  · refine perform_escapes_iff.trans ?_
    constructor
    · rintro ⟨text, hrest⟩
      exact .inr ⟨fs, text, rfl, hrest⟩
    · rintro (⟨-, he⟩ | ⟨fs', text, hd', hrest⟩)
      · cases he
      · obtain rfl := congrArg Prod.snd hd'
        exact ⟨text, hrest⟩

lemma hasNul_of_isFile (hm : h.files.isFile (root.child manifestName) = .ok true) :
    root.hasNul = false := by
  obtain ⟨bytes, mode, ht⟩ := FileSystem.isFile_eq_true_iff.mp hm
  by_contra hn
  have hchild : (root.child manifestName).hasNul = true := by
    rw [Path.hasNul, Path.child, List.any_cons, Bool.or_eq_true]
    exact .inr (by simpa [Path.hasNul] using hn)
  rw [targetAt, find_of_nul hchild] at ht
  cases ht

lemma isForeseen_of_manifest (hm : h.files.isFile (root.child manifestName) = .ok true)
    (hl : Manifest.load h.files (root.child manifestName) = .error e) : e.isForeseen = true := by
  obtain ⟨bytes, mode, ht⟩ := FileSystem.isFile_eq_true_iff.mp hm
  have hread : h.files.readFile (root.child manifestName) = .ok bytes := by rw [readFile, ht]
  rw [Manifest.load, hread] at hl
  cases hd : Manifest.decode bytes with
  | error ps =>
    simp only [hd] at hl
    obtain rfl := Except.error.inj hl
    rfl
  | ok m =>
    simp only [hd] at hl
    cases hl

lemma directoryName_error {fs : FileSystem} (hd : Variables.directoryName fs dest = .error e) :
    e.isForeseen = false := by
  rw [Variables.directoryName] at hd
  dsimp only at hd
  split_ifs at hd
  all_goals
    obtain rfl := Except.error.inj hd
    rfl

lemma resolve_eq_error_iff {fs : FileSystem} :
    Variables.resolve fs m caller dest root platform = .error e ↔
    Variables.directoryName fs dest = .error e ∨
    ∃ upper, Variables.above fs caller dest platform = .ok upper ∧ m.expandVariables = true ∧
      m.vars.mapM (Expr.expandString fs ⟨upper, root⟩) = .error e := by
  cases hu : Variables.above fs caller dest platform with
  | error d =>
    rw [Variables.resolve_of_above_error hu, Variables.directoryName_of_above hu]
    simp
  | ok upper =>
    obtain ⟨dir, hname, -⟩ := Variables.get?_above hu
    rw [Variables.resolve_of_above hu, hname]
    cases hx : m.expandVariables with
    | false => simp
    | true =>
      cases hv : m.vars.mapM (Expr.expandString fs ⟨upper, root⟩) with
      | error d => simp [Except.map, hv]
      | ok defaults => simp [Except.map, hv]

lemma plan_eq_error_iff {fs : FileSystem} : plan root dest caller platform fs = .error e ↔
    Manifest.load fs (root.child manifestName) = .error e ∨
    ∃ m, Manifest.load fs (root.child manifestName) = .ok m ∧
      Variables.resolve fs m caller dest root platform = .error e := by
  rw [plan]
  cases hl : Manifest.load fs (root.child manifestName) with
  | error d => simp
  | ok m =>
    cases hr : Variables.resolve fs m caller dest root platform with
    | error d => simp [hr]
    | ok vars => simp [hr]

lemma hasNul_of_plan {fs : FileSystem} (hp : plan root dest caller platform fs = .ok (m, ctx)) :
    dest.hasNul = false := by
  by_contra hn
  have hname : Variables.directoryName fs dest =
      .error (.obstacle (.refused .embeddedNul dest.text)) := by
    rw [Variables.directoryName, if_pos (by simpa using hn)]
  rw [plan] at hp
  split at hp
  · cases hp
  · rw [resolve_eq_error_iff.mpr (.inl hname)] at hp
    cases hp

lemma root_of_plan {fs : FileSystem} (hp : plan root dest caller platform fs = .ok (m, ctx)) :
    ctx.root = root := by
  rw [plan] at hp
  split at hp
  · cases hp
  · split at hp
    · cases hp
    · cases hp
      rfl

lemma load_of_refused {r : Refusal} (hm : h.files.isFile (root.child manifestName) = .error r) :
    (load root dest caller platform h).1 =
      .error (.obstacle (.refused r (root.child manifestName).text)) := by
  rw [load, bind_apply, FileAction.onHost, FileAction.ask, hm]

lemma load_of_no_manifest (hm : h.files.isFile (root.child manifestName) = .ok false) :
    (load root dest caller platform h).1 = (copyTree root dest h.files).1 := by
  have hask : FileAction.onHost (FileAction.ask FileSystem.isFile (root.child manifestName)) h =
      (.ok false, h) := by
    rw [FileAction.onHost, ask_of_ok hm]
  rw [load, bind_of_ok hask, if_neg Bool.false_ne_true]
  rfl

lemma load_of_unresolved (hm : h.files.isFile (root.child manifestName) = .ok true)
    (hl : Manifest.load h.files (root.child manifestName) = .ok m)
    (hr : Variables.resolve h.files m caller dest root platform = .error e) :
    (load root dest caller platform h).1 = .error e := by
  rw [load_of_plan hm, plan_eq_error_iff.mpr (.inr ⟨m, hl, hr⟩)]

lemma load_of_before (hm : h.files.isFile (root.child manifestName) = .ok true)
    (hp : plan root dest caller platform h.files = .ok (m, ctx))
    (hb : (before m ctx dest h).1 = .error e) : (load root dest caller platform h).1 = .error e := by
  rw [load_of_plan hm, hp]
  simp only [untilWalked, bind_apply]
  rcases hbefore : before m ctx dest h with ⟨d | u, h'⟩
  · rw [hbefore] at hb
    exact hb
  · rw [hbefore] at hb
    cases hb

lemma load_of_walk {h' : Host} (hm : h.files.isFile (root.child manifestName) = .ok true)
    (hp : plan root dest caller platform h.files = .ok (m, ctx))
    (hb : before m ctx dest h = (.ok (), h')) :
    load root dest caller platform h =
      ((materialize m ctx root dest).onHost >>= fun _ => perform m.postCommand ctx dest) h' := by
  rw [load_of_plan hm, hp]
  simp only [untilWalked, bind_apply, hb, root_of_plan hp]

lemma load_of_walked {h' : Host} (hm : h.files.isFile (root.child manifestName) = .ok true)
    (hp : plan root dest caller platform h.files = .ok (m, ctx))
    (hw : untilWalked m ctx dest h = (.ok (), h')) :
    (load root dest caller platform h).1 = (perform m.postCommand ctx dest h').1 := by
  rw [load_of_plan hm, hp]
  simp only [bind_apply, hw]

lemma Escape.load (hE : Escape root dest caller platform h e) :
    (Template.load root dest caller platform h).1 = .error e ∧ e.isForeseen = false := by
  cases hE with
  | manifest hm => exact ⟨load_of_refused hm, rfl⟩
  | copied hm hc he => exact ⟨(load_of_no_manifest hm).trans hc, he.isForeseen⟩
  | directory hm hl hd =>
    exact ⟨load_of_unresolved hm hl (resolve_eq_error_iff.mpr (.inl hd)), directoryName_error hd⟩
  | default hm hl hu hv he =>
    exact ⟨load_of_unresolved hm hl (resolve_eq_error_iff.mpr (.inr ⟨_, hu, hv⟩)), he.isForeseen⟩
  | destination hm hp hc hd =>
    obtain ⟨hb, hf⟩ := before_escapes_iff.mpr (.inl ⟨hc, hd⟩)
    exact ⟨load_of_before hm hp hb, hf⟩
  | first hm hp hd hc hx he =>
    obtain ⟨hb, hf⟩ := before_escapes_iff.mpr (.inr ⟨_, _, hd, hc, hx, he⟩)
    exact ⟨load_of_before hm hp hb, hf⟩
  | walk hm hp hb hw he =>
    rw [load_of_walk hm hp hb, bind_apply, FileAction.onHost]
    rcases hmat : materialize _ _ root dest _ with ⟨d | u, fs⟩
    · rw [hmat] at hw
      exact ⟨hw, he.isForeseen⟩
    · rw [hmat] at hw
      cases hw
  | second hm hp hw hc hx he =>
    rw [load_of_walked hm hp hw]
    exact perform_escapes_iff.mpr ⟨_, hc, hx, he⟩

end

theorem load_escapes_iff (root dest : Path) (caller : Bindings String) (platform : Option String)
    (h : Host) (e : Failure) :
    (load root dest caller platform h).1 = .error e ∧ e.isForeseen = false ↔
      Escape root dest caller platform h e := by
  refine ⟨fun ⟨he, hf⟩ => ?_, Escape.load⟩
  rcases hm : h.files.isFile (root.child manifestName) with r | (_ | _)
  · rw [load_of_refused hm] at he
    obtain rfl := Except.error.inj he
    exact .manifest hm
  · rw [load_of_no_manifest hm] at he
    refine .copied hm he ((copyTree_raises root dest h.files e he).resolve_left fun hwalk => ?_)
    exact absurd (Failure.isForeseen_of_isOfWalk hwalk) (by simp [hf])
  rcases hp : plan root dest caller platform h.files with d | ⟨m, ctx⟩
  · rw [load_of_plan hm, hp] at he
    obtain rfl := Except.error.inj he
    rcases plan_eq_error_iff.mp hp with hl | ⟨m, hl, hr⟩
    · exact absurd (isForeseen_of_manifest hm hl) (by simp [hf])
    rcases resolve_eq_error_iff.mp hr with hd | ⟨upper, hu, hv⟩
    · exact .directory hm hl hd
    · obtain ⟨n, text, -, hx⟩ := Bindings.exists_of_mapM hv.2
      exact .default hm hl hu hv ((Expr.expandString_failure hx).resolve_left (by simp [hf]))
  rcases hb : before m ctx dest h with ⟨d | u, h'⟩
  · have hload := load_of_before hm hp (congrArg Prod.fst hb)
    obtain rfl := Except.error.inj (hload.symm.trans he)
    rcases before_escapes_iff.mp ⟨congrArg Prod.fst hb, hf⟩ with
      ⟨hc, hd⟩ | ⟨fs, text, hd, hc, hx, hs⟩
    · exact .destination hm hp hc hd
    · exact .first hm hp hd hc hx hs
  have hraises := materialize_raises m ctx h'.files (hasNul_of_isFile hm) (hasNul_of_plan hp)
  rcases hmat : materialize m ctx root dest h'.files with ⟨d | u, fs⟩
  · rw [load_of_walk hm hp hb, bind_apply, FileAction.onHost, hmat] at he
    obtain rfl := Except.error.inj he
    have hd := congrArg Prod.fst hmat
    exact .walk hm hp hb hd ((hraises _ hd).resolve_left (by simp [hf]))
  · have hw : untilWalked m ctx dest h = (.ok (), { h' with files := fs }) := by
      rw [untilWalked, bind_of_ok hb, root_of_plan hp, FileAction.onHost, hmat]
    rw [load_of_walked hm hp hw] at he
    obtain ⟨text, hc, hx, hs⟩ := perform_escapes_iff.mp ⟨he, hf⟩
    exact .second hm hp hw hc hx hs

def occupiedHost : Host where
  files := (((FileSystem.empty.set ["t"] .directory).set ["makemake.json", "t"]
    (.file "\x7b\"preCommand\": \"x\"\x7d".toUTF8 newFileMode)).set ["o"]
    (.file "text".toUTF8 newFileMode))
  env := ∅
  processes := []
  launches := []

/-- Before a first command the destination is made with nobody to blame for it. -/
theorem load_over_file :
    (load ⟨.relative, [⟨"t", rfl⟩]⟩ ⟨.relative, [⟨"o", rfl⟩]⟩ ∅ none occupiedHost).1 =
      .error (.obstacle (.refused .occupied "o")) ∧
    (Failure.obstacle (.refused .occupied "o")).isForeseen = false :=
  ⟨by decide +kernel, rfl⟩

end Scaffold.Template
