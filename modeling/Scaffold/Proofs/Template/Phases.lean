import Scaffold.Load
import Scaffold.Proofs.Walk.Directories

/-! A load goes through its phases in order and stops at the first failure: what it has done to the
files by then, and which processes it has started. -/

namespace Scaffold

def Job.Ending.succeeded : Job.Ending → Bool
  | .notStarted _ => false
  | .exited code _ => code = 0

namespace Template

open Attempt FileAction FileSystem

def plan (root dest : Path) (caller : Bindings String) (platform : Option String)
    (fs : FileSystem) : Except Failure (Manifest × Context) :=
  match Manifest.load fs (root.child manifestName) with
  | .error e => .error e
  | .ok m =>
    match Variables.resolve fs m caller dest root platform with
    | .error e => .error e
    | .ok vars => .ok (m, ⟨vars, root⟩)

def Asked (command : Option String) : Prop :=
  ∃ text, command = some text ∧ text ≠ ""

def arguments (fs : FileSystem) (ctx : Context) (text : String) : Except Failure (List String) :=
  match Expr.expandString fs ctx text with
  | .error e => .error e
  | .ok line =>
    match Hook.commandWords line with
    | .error e => .error e
    | .ok ws => .ok (Hook.programPath (ws.headD "") ctx.root :: ws.tail)

def launchOf? (h : Host) (ctx : Context) (dest : Path) : Option String → Option Launch
  | none | some "" => none
  | some text =>
    match arguments h.files ctx text with
    | .error _ => none
    | .ok args => some ⟨args, dest, h.env.merge ctx.vars⟩

def first? (m : Manifest) (ctx : Context) (dest : Path) (h : Host) : Option Launch :=
  match makeDirectories dest h.files with
  | (.error _, _) => none
  | (.ok _, fs) => launchOf? { h with files := fs } ctx dest m.preCommand

def untilWalked (m : Manifest) (ctx : Context) (dest : Path) : HostAction Unit := do
  before m ctx dest
  (Walk.materialize m ctx ctx.root dest).onHost

def second? (m : Manifest) (ctx : Context) (dest : Path) (h : Host) : Option Launch :=
  match untilWalked m ctx dest h with
  | (.error _, _) => none
  | (.ok _, h) => launchOf? h ctx dest m.postCommand

section

variable {m : Manifest} {ctx : Context} {root dest : Path} {caller : Bindings String}
  {platform command : Option String} {h : Host} {l : Launch} {text : String}

lemma not_asked_iff : ¬ Asked command ↔ command = none ∨ command = some "" := by
  cases command <;> simp [Asked]

lemma launchOf?_of_text (ht : text ≠ "") :
    launchOf? h ctx dest (some text) = match arguments h.files ctx text with
      | .error _ => none
      | .ok args => some ⟨args, dest, h.env.merge ctx.vars⟩ := by
  rw [launchOf?]
  exact ht

lemma launchOf?_eq_some_iff : launchOf? h ctx dest command = some l ↔
    ∃ text args, command = some text ∧ text ≠ "" ∧ arguments h.files ctx text = .ok args ∧
      l = ⟨args, dest, h.env.merge ctx.vars⟩ := by
  by_cases hc : Asked command
  · obtain ⟨text, rfl, ht⟩ := hc
    rw [launchOf?_of_text ht]
    cases ha : arguments h.files ctx text <;> simp [ht, ha, eq_comm]
  · rcases not_asked_iff.mp hc with rfl | rfl <;> simp [launchOf?]

lemma isSome_launchOf? : (launchOf? h ctx dest command).isSome ↔
    ∃ text args, command = some text ∧ text ≠ "" ∧ arguments h.files ctx text = .ok args := by
  rw [Option.isSome_iff_exists]
  constructor
  · rintro ⟨l, hl⟩
    obtain ⟨text, args, hc, ht, hargs, -⟩ := launchOf?_eq_some_iff.mp hl
    exact ⟨text, args, hc, ht, hargs⟩
  · rintro ⟨text, args, hc, ht, hargs⟩
    exact ⟨_, launchOf?_eq_some_iff.mpr ⟨text, args, hc, ht, hargs, rfl⟩⟩

lemma perform_of_text (ht : text ≠ "") : perform (some text) ctx dest h = (do
    let line ← onHost (look fun fs => Expr.expandString fs ctx text)
    Hook.run line ctx.root dest ctx.vars : HostAction Unit) h := by
  rw [perform]
  exact ht

lemma perform_of_not_asked (hc : ¬ Asked command) : perform command ctx dest h = (.ok (), h) := by
  rcases not_asked_iff.mp hc with rfl | rfl <;> rfl

lemma perform_of_none (hc : Asked command) (hl : launchOf? h ctx dest command = none) :
    ∃ e, perform command ctx dest h = (.error e, h) := by
  obtain ⟨text, rfl, ht⟩ := hc
  rw [launchOf?_of_text ht, arguments] at hl
  rw [perform_of_text ht, bind_apply, onHost, look]
  cases hx : Expr.expandString h.files ctx text with
  | error e => exact ⟨e, rfl⟩
  | ok line =>
    cases hw : Hook.commandWords line with
    | error e =>
      refine ⟨e, ?_⟩
      simp only [Hook.run, hw]
    | ok ws => simp [hx, hw] at hl

lemma perform_of_some (hl : launchOf? h ctx dest command = some l) :
    ∃ r, perform command ctx dest h = (r, (h.launch l).2) ∧
      if (h.launch l).1.succeeded then r = .ok () else ∃ e, r = .error e := by
  obtain ⟨text, args, rfl, ht, hargs, rfl⟩ := launchOf?_eq_some_iff.mp hl
  rw [perform_of_text ht, bind_apply, onHost, look]
  rw [arguments] at hargs
  cases hx : Expr.expandString h.files ctx text with
  | error e => simp [hx] at hargs
  | ok line =>
    cases hw : Hook.commandWords line with
    | error e => simp [hx, hw] at hargs
    | ok ws =>
      simp only [hx, hw, Except.ok.injEq] at hargs
      subst hargs
      simp only [Hook.run, hw]
      rcases (h.launch _) with ⟨reason | ⟨code, stderr⟩, h'⟩
      · exact ⟨_, rfl, _, rfl⟩
      · by_cases hcode : code = 0
        · exact ⟨.ok (), by simp [hcode], by simp [hcode, Job.Ending.succeeded]⟩
        · exact ⟨.error (.hook line (.exited code stderr)), by simp [hcode],
            by simp [hcode, Job.Ending.succeeded]⟩

lemma load_of_plan (hm : h.files.isFile (root.child manifestName) = .ok true) :
    load root dest caller platform h = match plan root dest caller platform h.files with
      | .error e => (.error e, h)
      | .ok (m, ctx) => (untilWalked m ctx dest >>= fun _ =>
          perform m.postCommand ctx dest) h := by
  have hask : onHost (ask FileSystem.isFile (root.child manifestName)) h = (.ok true, h) := by
    rw [onHost, ask_of_ok hm]
  rw [load, bind_of_ok hask, if_pos rfl, plan, bind_apply, onHost, look]
  cases Manifest.load h.files (root.child manifestName) with
  | error e => rfl
  | ok m =>
    simp only [loadWith]
    rw [bind_apply, onHost, look]
    cases Variables.resolve h.files m caller dest root platform with
    | error e => rfl
    | ok vars =>
      simp only [untilWalked, bind_apply]
      rcases before m ⟨vars, root⟩ dest h with ⟨e | u, h'⟩ <;> rfl

lemma before_of_not_asked (hc : ¬ Asked m.preCommand) : before m ctx dest h = (.ok (), h) := by
  rw [before]
  rcases not_asked_iff.mp hc with hc | hc <;> rw [hc] <;> rfl

lemma before_of_asked (hc : Asked m.preCommand) :
    before m ctx dest h = ((makeDirectories dest).onHost >>= fun _ =>
      perform m.preCommand ctx dest) h := by
  obtain ⟨text, htext, ht⟩ := hc
  have hb : before m ctx dest = (makeDirectories dest).onHost >>= fun _ =>
      perform (some text) ctx dest := by
    rw [before, htext]
    split
    · contradiction
    · rename_i heq
      exact absurd (Option.some.inj heq) ht
    · rename_i text' heq
      rw [Option.some.inj heq]
  rw [hb, htext]

lemma before_of_none (hc : Asked m.preCommand) (hl : first? m ctx dest h = none) :
    ∃ e, before m ctx dest h = (.error e, { h with files := (makeDirectories dest h.files).2 }) := by
  rw [before_of_asked hc, bind_apply, onHost]
  rw [first?] at hl
  rcases hm : makeDirectories dest h.files with ⟨e | u, fs⟩
  · exact ⟨e, rfl⟩
  · rw [hm] at hl
    exact perform_of_none hc hl

lemma before_of_some (hl : first? m ctx dest h = some l) :
    (∃ D, (makeDirectories dest h.files).2.Leads dest D) ∧
    ∃ r, before m ctx dest h =
        (r, (Host.launch { h with files := (makeDirectories dest h.files).2 } l).2) ∧
      if (Host.launch { h with files := (makeDirectories dest h.files).2 } l).1.succeeded
      then r = .ok () else ∃ e, r = .error e := by
  rw [first?] at hl
  rcases hm : makeDirectories dest h.files with ⟨e | u, fs⟩
  · simp [hm] at hl
  · rw [hm] at hl
    obtain ⟨text, -, htext, ht, -⟩ := launchOf?_eq_some_iff.mp hl
    rw [before_of_asked ⟨text, htext, ht⟩, bind_apply, onHost, hm]
    exact ⟨makeDirectories_leads hm, perform_of_some hl⟩

lemma launches_before :
    (before m ctx dest h).2.launches = h.launches ++ (first? m ctx dest h).toList := by
  by_cases hc : Asked m.preCommand
  · cases hl : first? m ctx dest h with
    | none =>
      obtain ⟨e, he⟩ := before_of_none hc hl
      simp [he]
    | some l =>
      obtain ⟨-, r, hr, -⟩ := before_of_some hl
      simp [hr, Host.launch]
  · have hl : first? m ctx dest h = none := by
      rw [first?]
      rcases makeDirectories dest h.files with ⟨e | u, fs⟩
      · rfl
      · rcases not_asked_iff.mp hc with hc | hc <;> simp [hc, launchOf?]
    simp [before_of_not_asked hc, hl]

lemma launches_untilWalked :
    (untilWalked m ctx dest h).2.launches = h.launches ++ (first? m ctx dest h).toList := by
  rw [← launches_before, untilWalked, bind_apply]
  rcases before m ctx dest h with ⟨e | u, h'⟩ <;> rfl

lemma launches_perform :
    (perform command ctx dest h).2.launches =
      h.launches ++ (launchOf? h ctx dest command).toList := by
  by_cases hc : Asked command
  · cases hl : launchOf? h ctx dest command with
    | none =>
      obtain ⟨e, he⟩ := perform_of_none hc hl
      simp [he]
    | some l =>
      obtain ⟨r, hr, -⟩ := perform_of_some hl
      simp [hr, Host.launch]
  · rw [perform_of_not_asked hc]
    rcases not_asked_iff.mp hc with rfl | rfl <;> simp [launchOf?]

lemma cwd_env_of_launchOf? (hl : launchOf? h ctx dest command = some l) :
    l.cwd = dest ∧ l.env = h.env.merge ctx.vars := by
  obtain ⟨text, args, -, -, -, rfl⟩ := launchOf?_eq_some_iff.mp hl
  exact ⟨rfl, rfl⟩

lemma env_before : (before m ctx dest h).2.env = h.env := by
  by_cases hc : Asked m.preCommand
  · cases hl : first? m ctx dest h with
    | none =>
      obtain ⟨e, he⟩ := before_of_none hc hl
      rw [he]
    | some l =>
      obtain ⟨-, r, hr, -⟩ := before_of_some hl
      rw [hr]
      rfl
  · rw [before_of_not_asked hc]

lemma env_untilWalked : (untilWalked m ctx dest h).2.env = h.env := by
  have henv : (before m ctx dest h).2.env = h.env := env_before
  rw [← henv, untilWalked, bind_apply]
  rcases before m ctx dest h with ⟨e | u, h'⟩ <;> rfl

lemma first?_isSome_iff : (first? m ctx dest h).isSome ↔
    (makeDirectories dest h.files).1 = .ok () ∧
      ∃ text args, m.preCommand = some text ∧ text ≠ "" ∧
        arguments (makeDirectories dest h.files).2 ctx text = .ok args := by
  rw [first?]
  rcases makeDirectories dest h.files with ⟨e | u, fs⟩
  · simp
  · simp only [isSome_launchOf?, true_and]

lemma second?_isSome_iff : (second? m ctx dest h).isSome ↔
    (untilWalked m ctx dest h).1 = .ok () ∧ ∃ text args, m.postCommand = some text ∧ text ≠ "" ∧
      arguments (untilWalked m ctx dest h).2.files ctx text = .ok args := by
  rw [second?]
  rcases untilWalked m ctx dest h with ⟨e | u, h'⟩
  · simp
  · simp only [isSome_launchOf?, true_and]

lemma launches_load (hm : h.files.isFile (root.child manifestName) = .ok true)
    (hp : plan root dest caller platform h.files = .ok (m, ctx)) :
    (load root dest caller platform h).2.launches =
      h.launches ++ (first? m ctx dest h).toList ++ (second? m ctx dest h).toList := by
  rw [load_of_plan hm, hp, ← launches_untilWalked, second?]
  simp only [bind_apply]
  rcases untilWalked m ctx dest h with ⟨e | u, h'⟩
  · simp
  · exact launches_perform

lemma cwd_env_of_mem (hl : l ∈ (first? m ctx dest h).toList ++ (second? m ctx dest h).toList) :
    l.cwd = dest ∧ l.env = h.env.merge ctx.vars := by
  rcases List.mem_append.mp hl with hl | hl
  · rw [Option.mem_toList, first?] at hl
    rcases hd : makeDirectories dest h.files with ⟨e | u, fs⟩
    · simp [hd] at hl
    · rw [hd] at hl
      exact cwd_env_of_launchOf? (h := { h with files := fs }) hl
  · have henv : (untilWalked m ctx dest h).2.env = h.env := env_untilWalked
    rw [Option.mem_toList, second?] at hl
    rw [← henv]
    rcases hw : untilWalked m ctx dest h with ⟨e | u, h'⟩
    · simp [hw] at hl
    · rw [hw] at hl
      exact cwd_env_of_launchOf? hl

lemma load_of_stopped (hm : h.files.isFile (root.child manifestName) = .ok true)
    (hp : plan root dest caller platform h.files = .ok (m, ctx)) {e : Failure}
    (he : (untilWalked m ctx dest h).1 = .error e) :
    load root dest caller platform h = (.error e, (untilWalked m ctx dest h).2) := by
  rw [load_of_plan hm, hp]
  simp only [bind_apply]
  rcases hw : untilWalked m ctx dest h with ⟨d | u, h'⟩
  · rw [hw] at he
    rw [Except.error.inj he]
  · rw [hw] at he
    cases he

lemma load_of_none (hm : h.files.isFile (root.child manifestName) = .ok true)
    (hp : plan root dest caller platform h.files = .ok (m, ctx)) (hc : Asked m.preCommand)
    (hl : first? m ctx dest h = none) :
    ∃ e, load root dest caller platform h =
      (.error e, { h with files := (makeDirectories dest h.files).2 }) := by
  obtain ⟨e, he⟩ := before_of_none hc hl
  refine ⟨e, ?_⟩
  rw [load_of_plan hm, hp]
  simp only [untilWalked, bind_apply, he]

lemma load_of_some (hm : h.files.isFile (root.child manifestName) = .ok true)
    (hp : plan root dest caller platform h.files = .ok (m, ctx))
    (hl : first? m ctx dest h = some l) :
    let started := Host.launch { h with files := (makeDirectories dest h.files).2 } l
    if started.1.succeeded then
      load root dest caller platform h = (do
        (Walk.materialize m ctx root dest).onHost
        perform m.postCommand ctx dest : HostAction Unit) started.2
    else ∃ e, load root dest caller platform h = (.error e, started.2) := by
  have hroot : ctx.root = root := by
    rw [plan] at hp
    split at hp
    · cases hp
    · split at hp
      · cases hp
      · cases hp
        rfl
  intro started
  obtain ⟨-, r, hr, hend⟩ := before_of_some hl
  rw [load_of_plan hm, hp]
  simp only [untilWalked, bind_apply, hr, hroot]
  by_cases hs : started.1.succeeded
  · rw [if_pos hs] at hend ⊢
    rw [hend]
  · rw [if_neg hs] at hend ⊢
    obtain ⟨e, rfl⟩ := hend
    exact ⟨e, rfl⟩

end

/-- The phases of a load with a manifest. If it has no plan, it does nothing at all. A first command
runs in the destination before the walk, and when it cannot be started or does not succeed, nothing
has been done but for the destination and for what the command itself has done. A second command is
started if and only if the walk has succeeded and its words are known. Nothing else is started. -/
theorem load_in_phases (root dest : Path) (caller : Bindings String) (platform : Option String)
    (h : Host) (hm : h.files.isFile (root.child manifestName) = .ok true) :
    (∀ e, plan root dest caller platform h.files = .error e →
      load root dest caller platform h = (.error e, h)) ∧
    ∀ m ctx, plan root dest caller platform h.files = .ok (m, ctx) →
      (Asked m.preCommand →
        let fs := (makeDirectories dest h.files).2
        h.files.Prepares fs dest ∧
        match first? m ctx dest h with
        | none => ∃ e, load root dest caller platform h = (.error e, { h with files := fs })
        | some l =>
          let started := Host.launch { h with files := fs } l
          (∃ D, fs.Leads dest D) ∧
          if started.1.succeeded then
            load root dest caller platform h = (do
              (Walk.materialize m ctx root dest).onHost
              perform m.postCommand ctx dest : HostAction Unit) started.2
          else ∃ e, load root dest caller platform h = (.error e, started.2)) ∧
      ((first? m ctx dest h).isSome ↔ (makeDirectories dest h.files).1 = .ok () ∧
        ∃ text args, m.preCommand = some text ∧ text ≠ "" ∧
          arguments (makeDirectories dest h.files).2 ctx text = .ok args) ∧
      (∀ e, (untilWalked m ctx dest h).1 = .error e →
        load root dest caller platform h = (.error e, (untilWalked m ctx dest h).2)) ∧
      ((second? m ctx dest h).isSome ↔ (untilWalked m ctx dest h).1 = .ok () ∧
        ∃ text args, m.postCommand = some text ∧ text ≠ "" ∧
          arguments (untilWalked m ctx dest h).2.files ctx text = .ok args) ∧
      (load root dest caller platform h).2.launches =
        h.launches ++ (first? m ctx dest h).toList ++ (second? m ctx dest h).toList ∧
      ∀ l ∈ (first? m ctx dest h).toList ++ (second? m ctx dest h).toList,
        l.cwd = dest ∧ l.env = h.env.merge ctx.vars := by
  refine ⟨fun e he => ?_, fun m ctx hp => ⟨fun hc => ⟨makeDirectories_prepares dest h.files, ?_⟩,
    first?_isSome_iff, fun e he => load_of_stopped hm hp he, second?_isSome_iff,
    launches_load hm hp, fun l hl => cwd_env_of_mem hl⟩⟩
  · rw [load_of_plan hm, he]
  · cases hl : first? m ctx dest h with
    | none => exact load_of_none hm hp hc hl
    | some l => exact ⟨(before_of_some hl).1, load_of_some hm hp hl⟩

def haltingManifest : String :=
  "\x7b\"preCommand\": \"stop $\x7bn\x7d\", \"postCommand\": \"go\", " ++
    "\"vars\": \x7b\"n\": \"x y\"\x7d\x7d"

def haltingHost : Host where
  files := ((FileSystem.empty.set ["t"] .directory).set ["a", "t"] (.link "b")).set
    ["makemake.json", "t"] (.file haltingManifest.toUTF8 newFileMode)
  env := .ofList [("PATH", "/bin")]
  processes := [⟨fun fs => fs.set ["log"] (.link "x"), .exited 1 "no"⟩]
  launches := []

theorem load_in_phases_halting :
    (load ⟨.relative, [⟨"t", rfl⟩]⟩ ⟨.relative, [⟨"o", rfl⟩]⟩ ∅ none haltingHost).2.files =
      ((makeDirectories ⟨.relative, [⟨"o", rfl⟩]⟩ haltingHost.files).2.set ["log"] (.link "x")) ∧
    (load ⟨.relative, [⟨"t", rfl⟩]⟩ ⟨.relative, [⟨"o", rfl⟩]⟩ ∅ none haltingHost).2.launches.map
      Launch.args = [["stop", "x", "y"]] := by
  obtain ⟨-, hphases⟩ := load_in_phases ⟨.relative, [⟨"t", rfl⟩]⟩ ⟨.relative, [⟨"o", rfl⟩]⟩ ∅ none
    haltingHost (by decide +kernel)
  have hplan : (plan ⟨.relative, [⟨"t", rfl⟩]⟩ ⟨.relative, [⟨"o", rfl⟩]⟩ ∅ none
      haltingHost.files).map (fun p => (p.1.preCommand,
        (first? p.1 p.2 ⟨.relative, [⟨"o", rfl⟩]⟩ haltingHost).map Launch.args)) =
      .ok (some "stop $\x7bn\x7d", some ["stop", "x", "y"]) := by
    decide +kernel
  rcases hp : plan ⟨.relative, [⟨"t", rfl⟩]⟩ ⟨.relative, [⟨"o", rfl⟩]⟩ ∅ none haltingHost.files
    with e | ⟨m, ctx⟩
  · rw [hp] at hplan
    cases hplan
  rw [hp] at hplan
  simp only [Except.map, Except.ok.injEq, Prod.mk.injEq, Option.map_eq_some_iff] at hplan
  obtain ⟨hpre, l, hl, hargs⟩ := hplan
  obtain ⟨hfirst, -⟩ := hphases m ctx hp
  obtain ⟨-, hstart⟩ := hfirst ⟨_, hpre, by decide⟩
  rw [hl] at hstart
  obtain ⟨-, e, he⟩ := hstart
  rw [he]
  exact ⟨rfl, by rw [← hargs]; rfl⟩

end Template

end Scaffold
