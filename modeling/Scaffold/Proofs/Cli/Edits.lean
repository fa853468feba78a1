import Scaffold.Proofs.Config.Saving
import Scaffold.Proofs.Template.Layers

/-! The commands that change the configuration. Its file follows them: after any number of calls it
holds what the calls that succeeded make of the first configuration, and a call that fails leaves
everything as it was. -/

namespace Scaffold.Cli

open Attempt FileAction

inductive Edit
  | setVar (name value : String)
  | unsetVar (name : String)
  | setAlias (name template : String) (defines : List String)
  | removeAlias (name : String)
  deriving DecidableEq

namespace Edit

def command : Edit → Command
  | setVar name value => .varSet name value
  | unsetVar name => .varUnset name
  | setAlias name template defines => .aliasSet name template defines
  | removeAlias name => .aliasRemove name

def apply (c : Config) : Edit → Config
  | setVar name value => { c with vars := c.vars.insert name value }
  | unsetVar name => { c with vars := c.vars.erase name }
  | setAlias name template defines =>
    { c with aliases := c.aliases.insert name ⟨template, defined defines⟩ }
  | removeAlias name => { c with aliases := c.aliases.erase name }

def refusal? (c : Config) : Edit → Option Failure
  | setAlias _ _ defines => (defines.find? fun d => (cut d).1 = "").map .badDefinition
  | removeAlias name => if (c.aliases.get? name).isNone then some (.noAlias name) else none
  | _ => none

def isIdle (c : Config) : Edit → Bool
  | unsetVar name => (c.vars.get? name).isNone
  | _ => false

end Edit

def session : List Edit → Terminal → List Edit × Terminal
  | [], t => ([], t)
  | e :: es, t =>
    match run e.command t with
    | (.ok (), t') => (e :: (session es t').1, (session es t').2)
    | (.error _, t') => session es t'

section

variable {t : Terminal} {home' : Home} {c : Config} {f : Failure} {defines : List String}

lemma readDefinitions_of_find? {text : String}
    (h : defines.find? (fun d => (cut d).1 = "") = some text) :
    readDefinitions defines = .error (.badDefinition text) := by
  suffices hm : defines.mapM readDefinition = .error (.badDefinition text) by
    rw [readDefinitions, hm]
  induction defines with
  | nil => cases h
  | cons d ds ih =>
    rw [List.mapM_cons]
    by_cases hd : (cut d).1 = ""
    · rw [List.find?_cons_of_pos (by simpa using hd)] at h
      obtain rfl := Option.some.inj h
      have hname : d.toList.takeWhile (· ≠ '=') = [] := by simpa [cut] using hd
      rw [readDefinition, if_pos hname]
      rfl
    · rw [List.find?_cons_of_neg (by simpa using hd)] at h
      rw [readDefinition_of_cut hd, ih h]
      rfl

lemma readDefinitions_of_find?_none (h : defines.find? (fun d => (cut d).1 = "") = none) :
    readDefinitions defines = .ok (defined defines) := by
  rw [readDefinitions, mapM_readDefinition fun d hd => by simpa using List.find?_eq_none.mp h d hd]
  rfl

lemma home_of_resolve (hhome : Home.resolve t.host.env none = .ok home') :
    home t = (.ok home', t) := by
  rw [home, hhome]

lemma config_of_load (hhome : Home.resolve t.host.env none = .ok home')
    {r : Except Failure Config}
    (hload : Config.load home'.configPath t.host.files = (r, t.host.files)) :
    config t = (r, t) := by
  rw [config, bind_of_ok (home_of_resolve hhome), onFiles, onHost, FileAction.onHost, hload]

structure Saved (home' : Home) (t t' : Terminal) (c : Config) : Prop where
  env : t'.host.env = t.host.env
  canSave : Config.CanSave t'.host.files home'.configPath
  load : Config.load home'.configPath t'.host.files = (.ok c, t'.host.files)

/-- A call that is refused changes nothing, and any other saves what its edit makes of the
configuration. -/
def Edit.Obeyed (home' : Home) (t : Terminal) (c : Config) (e : Edit) : Prop :=
  match e.refusal? c with
  | some f => run e.command t = (.error f, t)
  | none => ∃ t', run e.command t = (.ok (), t') ∧ Saved home' t t' (e.apply c) ∧
      (e.isIdle c = true → t'.host = t.host)

lemma obeyed_of_refused {e : Edit} (hf : e.refusal? c = some f)
    (hrun : run e.command t = (.error f, t)) : e.Obeyed home' t c := by
  rw [Edit.Obeyed, hf]
  exact hrun

lemma obeyed_of_saving (hhome : Home.resolve t.host.env none = .ok home')
    (hsave : Config.CanSave t.host.files home'.configPath) {e : Edit} {message : String}
    (hf : e.refusal? c = none) (hi : e.isIdle c = false)
    (hrun : run e.command t = (do saveConfig (e.apply c); say message : Action Unit) t) :
    e.Obeyed home' t c := by
  obtain ⟨fs', hs, hcan, -, hload⟩ := hsave.save (e.apply c)
  have hdone : saveConfig (e.apply c) t =
      (.ok (), { t with host := { t.host with files := fs' } }) := by
    rw [saveConfig, bind_of_ok (home_of_resolve hhome), onFiles, onHost, FileAction.onHost, hs]
  rw [bind_of_ok hdone] at hrun
  rw [Edit.Obeyed, hf]
  exact ⟨_, hrun, ⟨rfl, hcan, hload⟩, fun h => by rw [hi] at h; cases h⟩

section

variable (hhome : Home.resolve t.host.env none = .ok home')
  (hsave : Config.CanSave t.host.files home'.configPath)
  (hload : Config.load home'.configPath t.host.files = (.ok c, t.host.files))

include hhome hsave hload

lemma setVar_obeyed (name value : String) : (Edit.setVar name value).Obeyed home' t c := by
  apply obeyed_of_saving hhome hsave rfl rfl
  rw [Edit.command, run, varSet, bind_of_ok (config_of_load hhome hload)]
  rfl

lemma unsetVar_obeyed (name : String) : (Edit.unsetVar name).Obeyed home' t c := by
  have hc := config_of_load hhome hload
  cases hv : c.vars.get? name with
  | none =>
    have hsame : Edit.apply c (.unsetVar name) = c := by
      rw [Edit.apply, Bindings.erase_of_get?_none hv]
    refine ⟨t.print ("Variable '" ++ name ++ "' is not set\n"), ?_, ?_, fun _ => rfl⟩
    · rw [Edit.command, run, varUnset, bind_of_ok hc, Config.eraseVar?, hv]
      rfl
    · rw [hsame]
      exact ⟨rfl, hsave, hload⟩
  | some value =>
    apply obeyed_of_saving hhome hsave rfl (by rw [Edit.isIdle, hv]; rfl)
    rw [Edit.command, run, varUnset, bind_of_ok hc, Config.eraseVar?, hv, Option.map_some]
    rfl

lemma setAlias_obeyed (name template : String) (defines : List String) :
    (Edit.setAlias name template defines).Obeyed home' t c := by
  have hc := config_of_load hhome hload
  cases hd : defines.find? (fun d => (cut d).1 = "") with
  | some text =>
    apply obeyed_of_refused (by rw [Edit.refusal?, hd, Option.map_some])
    rw [Edit.command, run, aliasSet, bind_of_ok hc, readDefinitions_of_find? hd, settle_error]
    rfl
  | none =>
    apply obeyed_of_saving hhome hsave (by rw [Edit.refusal?, hd, Option.map_none]) rfl
    rw [Edit.command, run, aliasSet, bind_of_ok hc, readDefinitions_of_find?_none hd, settle_ok,
      bind_of_ok (pure_apply _ t)]
    rfl

lemma removeAlias_obeyed (name : String) : (Edit.removeAlias name).Obeyed home' t c := by
  have hc := config_of_load hhome hload
  cases ha : c.aliases.get? name with
  | none =>
    apply obeyed_of_refused (by rw [Edit.refusal?, ha]; rfl)
    rw [Edit.command, run, aliasRemove, bind_of_ok hc, Config.eraseAlias, ha, settle_error]
    rfl
  | some a =>
    apply obeyed_of_saving hhome hsave (by rw [Edit.refusal?, ha]; rfl) rfl
    rw [Edit.command, run, aliasRemove, bind_of_ok hc, Config.eraseAlias, ha, settle_ok,
      bind_of_ok (pure_apply _ t)]
    rfl

lemma obeyed (e : Edit) : e.Obeyed home' t c := by
  cases e with
  | setVar name value => exact setVar_obeyed hhome hsave hload name value
  | unsetVar name => exact unsetVar_obeyed hhome hsave hload name
  | setAlias name template defines => exact setAlias_obeyed hhome hsave hload name template defines
  | removeAlias name => exact removeAlias_obeyed hhome hsave hload name

end

lemma run_of_unreadable (hhome : Home.resolve t.host.env none = .ok home')
    (hload : Config.load home'.configPath t.host.files = (.error f, t.host.files)) (e : Edit) :
    run e.command t = (.error f, t) := by
  have hc := config_of_load hhome hload
  cases e <;> exact bind_of_error hc _

lemma session_of_unreadable (hhome : Home.resolve t.host.env none = .ok home')
    (hload : Config.load home'.configPath t.host.files = (.error f, t.host.files))
    (edits : List Edit) : session edits t = ([], t) := by
  induction edits with
  | nil => rfl
  | cons e es ih =>
    rw [session, run_of_unreadable hhome hload e]
    exact ih

lemma session_saved (hhome : Home.resolve t.host.env none = .ok home')
    (hsave : Config.CanSave t.host.files home'.configPath)
    (hload : Config.load home'.configPath t.host.files = (.ok c, t.host.files))
    (edits : List Edit) :
    Saved home' t (session edits t).2 ((session edits t).1.foldl Edit.apply c) := by
  induction edits generalizing t c with
  | nil => exact ⟨rfl, hsave, hload⟩
  | cons e es ih =>
    have hstep := obeyed hhome hsave hload e
    rw [Edit.Obeyed] at hstep
    rw [session]
    cases hr : e.refusal? c with
    | some f =>
      rw [hr] at hstep
      rw [hstep]
      exact ih hhome hsave hload
    | none =>
      rw [hr] at hstep
      obtain ⟨t', hrun, hsaved, -⟩ := hstep
      rw [hrun]
      have hrest := ih (hsaved.env ▸ hhome) hsaved.canSave hsaved.load
      exact ⟨hrest.env.trans hsaved.env, hrest.canSave, hrest.load⟩

end

/-- The file of the configuration follows the calls, whatever they are given. What is loaded after
any number of them is the first configuration with the edits of those that succeeded. The next one
fails for its refusal only, and then, as when it unsets what is not set, nothing is written. While
the file is no configuration every call fails and writes nothing. -/
theorem config_follows_edits (t : Terminal) (home' : Home)
    (hhome : Home.resolve t.host.env none = .ok home') (edits : List Edit) :
    let p := home'.configPath
    (t.host.files.exists? p = .ok false → (Config.load p t.host.files).1 = .ok .empty) ∧
    match (Config.load p t.host.files).1 with
    | .error f => session edits t = ([], t) ∧ ∀ e : Edit, run e.command t = (.error f, t)
    | .ok c => Config.CanSave t.host.files p →
      ∃ succeeded t', session edits t = (succeeded, t') ∧
        let c' := succeeded.foldl Edit.apply c
        Config.load p t'.host.files = (.ok c', t'.host.files) ∧
        ∀ e : Edit, match e.refusal? c' with
          | some f => run e.command t' = (.error f, t')
          | none => ∃ t'', run e.command t' = (.ok (), t'') ∧
              Config.load p t''.host.files = (.ok (e.apply c'), t''.host.files) ∧
              (e.isIdle c' = true → t''.host = t'.host) := by
  intro p
  refine ⟨fun habsent => by rw [Config.load_of_absent habsent], ?_⟩
  have hstay := Config.load_snd p t.host.files
  rcases hload : Config.load p t.host.files with ⟨f | c, fs⟩
  · obtain rfl : fs = t.host.files := by rw [← hstay, hload]
    exact ⟨session_of_unreadable hhome hload edits, run_of_unreadable hhome hload⟩
  · obtain rfl : fs = t.host.files := by rw [← hstay, hload]
    intro hsave
    have hsaved := session_saved hhome hsave hload edits
    refine ⟨_, _, rfl, hsaved.load, fun e => ?_⟩
    have hstep := obeyed (hsaved.env ▸ hhome) hsaved.canSave hsaved.load e
    rw [Edit.Obeyed] at hstep
    split at hstep
    · exact hstep
    · obtain ⟨t'', hrun, hnext, hidle⟩ := hstep
      exact ⟨t'', hrun, hnext.load, hidle⟩

def newTerminal : Terminal :=
  ⟨⟨.empty, .ofList [("MAKEMAKE_HOME", "h")], [], []⟩, [], "", none⟩

def sampleEdits : List Edit :=
  [.setVar "a" "\"", .setAlias "s" "t" ["=x"], .setAlias "s" "t" ["k=1=2", "k"], .removeAlias "q",
    .unsetVar "b"]

theorem config_follows_edits_sample :
    Home.resolve newTerminal.host.env none = .ok ⟨⟨.relative, [⟨"h", rfl⟩]⟩⟩ ∧
    ∃ t', session sampleEdits newTerminal =
        ([.setVar "a" "\"", .setAlias "s" "t" ["k=1=2", "k"], .unsetVar "b"], t') ∧
      Config.load Config.newFile t'.host.files =
        (.ok ⟨.ofList [("a", "\"")], .ofList [("s", ⟨"t", .ofList [("k", "")]⟩)]⟩, t'.host.files) ∧
      run (.aliasRemove "q") t' = (.error (.noAlias "q"), t') := by
  have hhome : Home.resolve newTerminal.host.env none = .ok ⟨⟨.relative, [⟨"h", rfl⟩]⟩⟩ := by
    decide +kernel
  obtain ⟨habsent, hall⟩ := config_follows_edits newTerminal _ hhome sampleEdits
  have hempty := habsent (by decide +kernel)
  rw [hempty] at hall
  obtain ⟨succeeded, t', hs, hload, hnext⟩ := hall Config.canSave_newFile
  have hwhich : (session sampleEdits newTerminal).1 =
      [.setVar "a" "\"", .setAlias "s" "t" ["k=1=2", "k"], .unsetVar "b"] := by
    decide +kernel
  obtain rfl : [.setVar "a" "\"", .setAlias "s" "t" ["k=1=2", "k"], .unsetVar "b"] = succeeded := by
    rw [← hwhich, hs]
  exact ⟨hhome, t', hs, hload, hnext (.removeAlias "q")⟩

end Scaffold.Cli
