import Scaffold.Cli.Commands
import Scaffold.Proofs.Bindings
import Scaffold.Proofs.Template.Phases

/-! The variables of a load stand in layers, from the definitions of the command line down to the
defaults of the manifest, and each name has the value of the first layer that knows it. -/

namespace Scaffold

namespace Variables

def computedValue? (dir : String) (platform : Option String) (n : String) : Option String :=
  if n = "_OS" then some (detect platform)
  else if n = "_" then some ""
  else if n = "_PDIR" then some dir
  else if flag? (detect platform) = some n then some "true"
  else none

def above (fs : FileSystem) (caller : Bindings String) (dest : Path) (platform : Option String) :
    Except Failure (Bindings String) :=
  (computed fs dest platform).map (·.merge caller)

/-- A default counts where nothing stands above it. If it is to be expanded, only what stands above
is known. -/
def layered (fs : FileSystem) (m : Manifest) (upper : Bindings String) (root : Path) (n : String) :
    Except Failure (Option String) :=
  match upper.get? n, m.vars.get? n with
  | some v, _ => .ok (some v)
  | none, none => .ok none
  | none, some text =>
    if m.expandVariables then (Expr.expandString fs ⟨upper, root⟩ text).map some
    else .ok (some text)

section

variable {fs : FileSystem} {m : Manifest} {caller upper vars : Bindings String} {dest root : Path}
  {platform : Option String} {e : Failure}

lemma flag?_eq_some {os n : String} (h : flag? os = some n) :
    n ≠ "_OS" ∧ n ≠ "_" ∧ n ≠ "_PDIR" := by
  unfold flag? at h
  split at h <;> simp_all <;> subst h <;> decide

lemma get?_computed (h : computed fs dest platform = .ok upper) :
    ∃ dir, directoryName fs dest = .ok dir ∧
      ∀ n, upper.get? n = computedValue? dir platform n := by
  rw [computed] at h
  cases hd : directoryName fs dest with
  | error e =>
    rw [hd] at h
    cases h
  | ok dir =>
    rw [hd] at h
    cases h
    refine ⟨dir, rfl, fun n => ?_⟩
    rw [Bindings.get?_ofList, computedValue?]
    cases hf : flag? (detect platform) with
    | none =>
      simp only [Option.toList, List.map_nil, List.append_nil, List.reverse_cons, List.reverse_nil,
        List.nil_append, List.cons_append, Bindings.find]
      grind
    | some flag =>
      obtain ⟨h1, h2, h3⟩ := flag?_eq_some hf
      simp only [Option.toList, List.map_cons, List.map_nil, List.reverse_cons,
        List.reverse_nil, List.nil_append, List.cons_append, Bindings.find]
      grind

lemma get?_above (h : above fs caller dest platform = .ok upper) :
    ∃ dir, directoryName fs dest = .ok dir ∧
      ∀ n, upper.get? n = (caller.get? n).or (computedValue? dir platform n) := by
  rw [above] at h
  cases hc : computed fs dest platform with
  | error e =>
    rw [hc] at h
    cases h
  | ok internal =>
    rw [hc] at h
    cases h
    obtain ⟨dir, hdir, hget⟩ := get?_computed hc
    exact ⟨dir, hdir, fun n => by rw [Bindings.get?_merge, hget]⟩

lemma directoryName_of_above (h : above fs caller dest platform = .error e) :
    directoryName fs dest = .error e := by
  rw [above, computed] at h
  cases hd : directoryName fs dest with
  | error d =>
    rw [hd] at h
    cases h
    rfl
  | ok dir =>
    rw [hd] at h
    cases h

lemma resolve_of_above (h : above fs caller dest platform = .ok upper) :
    resolve fs m caller dest root platform =
      if m.expandVariables then
        (m.vars.mapM (Expr.expandString fs ⟨upper, root⟩)).map (·.merge upper)
      else .ok (m.vars.merge upper) := by
  rw [above] at h
  rw [resolve]
  cases hc : computed fs dest platform with
  | error e =>
    rw [hc] at h
    cases h
  | ok internal =>
    rw [hc] at h
    cases h
    rfl

lemma resolve_of_above_error (h : above fs caller dest platform = .error e) :
    resolve fs m caller dest root platform = .error e := by
  rw [above] at h
  rw [resolve]
  cases hc : computed fs dest platform with
  | error d =>
    rw [hc] at h
    cases h
    rfl
  | ok internal =>
    rw [hc] at h
    cases h

lemma layered_of_resolve (hu : above fs caller dest platform = .ok upper)
    (h : resolve fs m caller dest root platform = .ok vars) (n : String) :
    layered fs m upper root n = .ok (vars.get? n) := by
  rw [resolve_of_above hu] at h
  rw [layered]
  by_cases hx : m.expandVariables = true
  · rw [if_pos hx] at h
    cases hm : m.vars.mapM (Expr.expandString fs ⟨upper, root⟩) with
    | error e =>
      rw [hm] at h
      cases h
    | ok defaults =>
      rw [hm] at h
      cases h
      have hget := Bindings.get?_mapM hm n
      rw [Bindings.get?_merge]
      cases hv : upper.get? n with
      | some v => rfl
      | none =>
        cases hd : m.vars.get? n with
        | none =>
          rw [hd] at hget
          rw [hget]
          rfl
        | some text =>
          rw [hd] at hget
          obtain ⟨v, hv, hget⟩ := hget
          simp only [hx, if_true, hv, hget]
          rfl
  · rw [if_neg hx] at h
    cases h
    rw [Bindings.get?_merge]
    cases upper.get? n with
    | some v => rfl
    | none => cases hd : m.vars.get? n <;> simp [hx]

lemma default_of_resolve_error (hu : above fs caller dest platform = .ok upper)
    (h : resolve fs m caller dest root platform = .error e) :
    m.expandVariables = true ∧
      ∃ n text, m.vars.get? n = some text ∧ Expr.expandString fs ⟨upper, root⟩ text = .error e := by
  rw [resolve_of_above hu] at h
  by_cases hx : m.expandVariables = true
  · refine ⟨hx, ?_⟩
    rw [if_pos hx] at h
    cases hm : m.vars.mapM (Expr.expandString fs ⟨upper, root⟩) with
    | error d =>
      rw [hm] at h
      cases h
      exact Bindings.exists_of_mapM hm
    | ok defaults =>
      rw [hm] at h
      cases h
  · rw [if_neg hx] at h
    cases h

end

end Variables

namespace Cli

open Attempt FileAction

def Defines (text n v : String) : Prop :=
  '=' ∉ n.toList ∧ (text = n ∧ v = "" ∨ text = n ++ "=" ++ v)

def DefinesLast (texts : List String) (n v : String) : Prop :=
  ∃ former text later, texts = former ++ text :: later ∧ Defines text n v ∧
    ∀ other ∈ later, ∀ w, ¬ Defines other n w

def cut (text : String) : String × String :=
  (String.ofList (text.toList.takeWhile (· ≠ '=')),
    String.ofList (text.toList.dropWhile (· ≠ '=')).tail)

section

variable {texts : List String} {text n v : String}

lemma readDefinition_of_cut (h : (cut text).1 ≠ "") : readDefinition text = .ok (cut text) := by
  rw [readDefinition, if_neg fun he => h (by rw [cut, he])]
  rfl

lemma cut_of_defines (h : Defines text n v) : cut text = (n, v) := by
  obtain ⟨hn, ht⟩ := h
  have hpos : ∀ c ∈ n.toList, decide (c ≠ '=') = true := fun c hc => by
    simpa using fun he : c = '=' => hn (he ▸ hc)
  have hrest (rest : List Char) (htext : text.toList = n.toList ++ rest)
      (htake : rest.takeWhile (· ≠ '=') = []) (hdrop : rest.dropWhile (· ≠ '=') = rest)
      (hv : String.ofList rest.tail = v) : cut text = (n, v) := by
    rw [cut, htext, List.takeWhile_append_of_pos hpos, htake, List.append_nil,
      List.dropWhile_append_of_pos hpos, hdrop, hv, String.ofList_toList]
  rcases ht with ⟨rfl, rfl⟩ | rfl
  · exact hrest [] (List.append_nil _).symm rfl rfl rfl
  · exact hrest ('=' :: v.toList) (by simp) (by simp) (by simp) (by simp)

lemma defines_cut (text : String) : Defines text (cut text).1 (cut text).2 := by
  have hsplit := List.takeWhile_append_dropWhile (p := fun c => decide (c ≠ '=')) (l := text.toList)
  have hname := List.all_eq_true.mp
    (List.all_takeWhile (p := fun c => decide (c ≠ '=')) (l := text.toList))
  refine ⟨fun hm => ?_, ?_⟩
  · rw [cut, String.toList_ofList] at hm
    simpa using hname '=' hm
  · rw [cut]
    cases hd : text.toList.dropWhile (fun c => decide (c ≠ '=')) with
    | nil =>
      rw [hd, List.append_nil] at hsplit
      exact .inl ⟨by rw [hsplit, String.ofList_toList], rfl⟩
    | cons c rest =>
      have hc := List.head?_dropWhile_not (fun c => decide (c ≠ '=')) text.toList
      rw [hd] at hc hsplit
      obtain rfl : c = '=' := by simpa using hc
      exact .inr (String.toList_inj.mp (hsplit.symm.trans (by simp)))

lemma defines_iff : Defines text n v ↔ cut text = (n, v) :=
  ⟨cut_of_defines, fun h => by
    have hd := defines_cut text
    rwa [h] at hd⟩

lemma mapM_readDefinition (h : ∀ text ∈ texts, (cut text).1 ≠ "") :
    texts.mapM readDefinition = .ok (texts.map cut) := by
  induction texts with
  | nil => rfl
  | cons text texts ih =>
    rw [List.mapM_cons, readDefinition_of_cut (h text List.mem_cons_self),
      ih fun other ho => h other (List.mem_cons_of_mem text ho)]
    rfl

lemma find_cuts : Bindings.find n (texts.map cut).reverse = some v ↔ DefinesLast texts n v := by
  have hnone (later : List String) : n ∉ (later.map cut).map Prod.fst ↔
      ∀ other ∈ later, ∀ w, ¬ Defines other n w := by
    simp only [List.map_map, List.mem_map, not_exists, not_and, Function.comp, defines_iff]
    exact ⟨fun h other ho w hw => h other ho (congrArg Prod.fst hw),
      fun h other ho he => h other ho (cut other).2 (Prod.ext he rfl)⟩
  rw [Bindings.find_reverse_eq_some_iff, DefinesLast]
  constructor
  · rintro ⟨former, later, hmap, hn⟩
    obtain ⟨former', rest, rfl, -, hrest⟩ := List.map_eq_append_iff.mp hmap
    obtain ⟨text, later', rfl, hcut, rfl⟩ := List.map_eq_cons_iff.mp hrest
    exact ⟨former', text, later', rfl, defines_iff.mpr hcut, (hnone later').mp hn⟩
  · rintro ⟨former, text, later, rfl, hd, hn⟩
    exact ⟨former.map cut, later.map cut, by simp [defines_iff.mp hd], (hnone later).mpr hn⟩

end

def defined (defines : List String) : Bindings String :=
  .ofList (defines.map cut)

def said (c : Config) (name : String) (defines : List String) : Bindings String :=
  Variables.mergeAll [c.vars, (c.resolve name).2, defined defines]

section

variable {c : Config} {name : String} {t t' : Terminal} {dest root : Path} {defines : List String}
  {answer : Answer} {home' : Home} {m : Manifest} {vars : Bindings String} {e : Failure}

lemma get?_defined {n v : String} :
    (defined defines).get? n = some v ↔ DefinesLast defines n v := by
  rw [defined, Bindings.get?_ofList, find_cuts]

lemma get?_said (n : String) :
    (said c name defines).get? n = ((defined defines).get? n).or
      (((c.aliases.get? name).bind fun a => a.vars.get? n).or (c.vars.get? n)) := by
  have halias : (c.resolve name).2.get? n =
      (c.aliases.get? name).bind fun a => a.vars.get? n := by
    rw [Config.resolve]
    cases c.aliases.get? name <;> rfl
  have hempty : (∅ : Bindings String).get? n = none := rfl
  simp only [said, Variables.mergeAll, List.foldl_cons, List.foldl_nil, Bindings.get?_merge,
    halias, hempty, Option.or_none]

lemma readDefinitions_eq (h : ∀ text ∈ defines, ∃ n v, n ≠ "" ∧ Defines text n v) :
    readDefinitions defines = .ok (defined defines) := by
  have hcut : ∀ text ∈ defines, (cut text).1 ≠ "" := by
    intro text ht
    obtain ⟨n, v, hn, hd⟩ := h text ht
    rw [cut_of_defines hd]
    exact hn
  rw [readDefinitions, mapM_readDefinition hcut]
  rfl

def finish (m : Manifest) (ctx : Context) (template : String) (dest : Path) : Action Unit := do
  onHost do
    Template.untilWalked m ctx dest
    Template.perform m.postCommand ctx dest
  say ("Loaded template '" ++ template ++ "' into " ++ dest.text ++ "\n")

lemma load_eq (name : String) (hc : config t = (.ok c, t))
    (hd : ∀ text ∈ defines, ∃ n v, n ≠ "" ∧ Defines text n v)
    (hgo : mayFill dest "template" answer t = (.ok true, t'))
    (hhome : Home.resolve t'.host.env none = .ok home') :
    load name dest defines answer t = (do
      onHost (Store.load home' (c.resolve name).1 dest (said c name defines))
      say ("Loaded template '" ++ (c.resolve name).1 ++ "' into " ++ dest.text ++ "\n")
      : Action Unit) t' := by
  have hhome' : home t' = (.ok home', t') := by rw [home, hhome]
  rw [load, bind_of_ok hc, readDefinitions_eq hd, settle_ok, said]
  rcases c.resolve name with ⟨template, aliasVars⟩
  dsimp only
  rw [bind_of_ok (pure_apply _ t), bind_of_ok hgo, if_pos rfl, bind_of_ok hhome']

lemma storeLoad_eq {h : Host} {template : String} (dest : Path) (caller : Bindings String)
    (hroot : Store.directoryOf home' template h.files = (.ok root, h.files))
    (hm : h.files.isFile (root.child Template.manifestName) = .ok true)
    (hload : Manifest.load h.files (root.child Template.manifestName) = .ok m) :
    Store.load home' template dest caller h =
      match Variables.resolve h.files m caller dest root none with
      | .error e => (.error e, h)
      | .ok vars => (do
          Template.untilWalked m ⟨vars, root⟩ dest
          Template.perform m.postCommand ⟨vars, root⟩ dest : HostAction Unit) h := by
  have hdir : FileAction.onHost (Store.directoryOf home' template) h = (.ok root, h) := by
    rw [FileAction.onHost, hroot]
  rw [Store.load, bind_of_ok hdir, Template.load_of_plan hm, Template.plan, hload]
  dsimp only
  cases hr : Variables.resolve h.files m caller dest root none with
  | error e => rfl
  | ok vars => rfl

end

/-- The variables that a load hands to its walk and to both commands. Each has the value of the
first of these that knows it: the last definition on the command line, the alias, the
configuration, what is computed, and the defaults of the manifest. A default that is to be expanded
sees all former layers and no other default. -/
theorem load_layers (t t' : Terminal) (name : String) (dest : Path) (defines : List String)
    (answer : Answer) (c : Config) (home' : Home) (root : Path) (m : Manifest)
    (hc : config t = (.ok c, t))
    (hd : ∀ text ∈ defines, ∃ n v, n ≠ "" ∧ Defines text n v)
    (hgo : mayFill dest "template" answer t = (.ok true, t'))
    (hhome : Home.resolve t'.host.env none = .ok home')
    (hroot : Store.directoryOf home' (c.resolve name).1 t'.host.files = (.ok root, t'.host.files))
    (hm : t'.host.files.isFile (root.child Template.manifestName) = .ok true)
    (hload : Manifest.load t'.host.files (root.child Template.manifestName) = .ok m) :
    let fs := t'.host.files
    let caller := said c name defines
    (∀ n v, (defined defines).get? n = some v ↔ DefinesLast defines n v) ∧
    (∀ n, caller.get? n = ((defined defines).get? n).or
      (((c.aliases.get? name).bind fun a => a.vars.get? n).or (c.vars.get? n))) ∧
    match Variables.above fs caller dest none with
    | .error e => Variables.directoryName fs dest = .error e ∧
        load name dest defines answer t = (.error e, t')
    | .ok upper =>
      (∃ dir, Variables.directoryName fs dest = .ok dir ∧
        ∀ n, upper.get? n = (caller.get? n).or (Variables.computedValue? dir none n)) ∧
      match Variables.resolve fs m caller dest root none with
      | .error e => load name dest defines answer t = (.error e, t') ∧
          m.expandVariables = true ∧ ∃ n text, m.vars.get? n = some text ∧
            Expr.expandString fs ⟨upper, root⟩ text = .error e
      | .ok vars =>
        (∀ n, Variables.layered fs m upper root n = .ok (vars.get? n)) ∧
        load name dest defines answer t =
          finish m ⟨vars, root⟩ (c.resolve name).1 dest t' ∧
        ∀ m' vars', m'.expandVariables = m.expandVariables →
          Variables.resolve fs m' caller dest root none = .ok vars' →
          ∀ n, m'.vars.get? n = m.vars.get? n → vars'.get? n = vars.get? n := by
  intro fs caller
  refine ⟨fun n v => get?_defined, get?_said, ?_⟩
  have hrun := load_eq name hc hd hgo hhome
  have hstore := storeLoad_eq dest caller hroot hm hload
  cases hu : Variables.above fs caller dest none with
  | error e =>
    refine ⟨Variables.directoryName_of_above hu, ?_⟩
    rw [Variables.resolve_of_above_error hu] at hstore
    rw [hrun, bind_apply, onHost, hstore]
  | ok upper =>
    refine ⟨Variables.get?_above hu, ?_⟩
    cases hr : Variables.resolve fs m caller dest root none with
    | error e =>
      rw [hr] at hstore
      refine ⟨?_, Variables.default_of_resolve_error hu hr⟩
      rw [hrun, bind_apply, onHost, hstore]
    | ok vars =>
      rw [hr] at hstore
      have hlayered := Variables.layered_of_resolve hu hr
      refine ⟨hlayered, ?_, fun m' vars' hx hr' n hn => ?_⟩
      · rw [hrun, finish, bind_apply, bind_apply, onHost, onHost, hstore]
      · have hl := Variables.layered_of_resolve hu hr' n
        have hsame : Variables.layered fs m' upper root n = Variables.layered fs m upper root n := by
          rw [Variables.layered, Variables.layered, hx, hn]
        rw [hsame, hlayered n] at hl
        exact (Except.ok.inj hl).symm

def layeredManifest : String :=
  "\x7b\"expandVariables\": true, \"vars\": " ++
    "\x7b\"c\": \"no\", \"d\": \"$\x7bc\x7d$\x7be\x7d\", \"e\": \"5\"\x7d\x7d"

def layeredConfig : String :=
  "\x7b\"vars\": \x7b\"a\": \"1\", \"b\": \"1\"\x7d, \"aliases\": " ++
    "\x7b\"s\": \x7b\"template\": \"t\", \"vars\": \x7b\"b\": \"2\", \"c\": \"2\"\x7d\x7d\x7d\x7d"

def layeredFiles : FileSystem :=
  ((((FileSystem.empty.set ["h"] .directory).set ["config.json", "h"]
    (.file layeredConfig.toUTF8 FileSystem.newFileMode)).set ["templates", "h"] .directory).set
    ["t", "templates", "h"] .directory).set ["makemake.json", "t", "templates", "h"]
    (.file layeredManifest.toUTF8 FileSystem.newFileMode)

def layeredTerminal : Terminal :=
  ⟨⟨layeredFiles, .ofList [("MAKEMAKE_HOME", "h")], [], []⟩, [], "", none⟩

def layeredConfiguration : Config :=
  ⟨.ofList [("a", "1"), ("b", "1")], .ofList [("s", ⟨"t", .ofList [("b", "2"), ("c", "2")]⟩)]⟩

def layeredDefaults : Manifest :=
  ⟨none, none, true, ∅, .ofList [("c", "no"), ("d", "$\x7bc\x7d$\x7be\x7d"), ("e", "5")]⟩

theorem load_layers_sample :
    ∃ vars : Bindings String,
      ["a", "b", "c", "d", "e", "_LINUX"].map vars.get? =
        [some "1", some "2", some "3=x", some "3=x", some "5", some "true"] ∧
      load "s" (Path.ofString "o") ["c=9", "c=3=x"] .ask layeredTerminal =
        finish layeredDefaults ⟨vars, Path.ofString "h/templates/t"⟩ "t" (Path.ofString "o")
          layeredTerminal := by
  obtain ⟨-, -, hload⟩ := load_layers layeredTerminal layeredTerminal "s" (Path.ofString "o")
    ["c=9", "c=3=x"] .ask layeredConfiguration ⟨Path.ofString "h"⟩ (Path.ofString "h/templates/t")
    layeredDefaults (Prod.ext (by decide +kernel) rfl)
    (by
      intro text ht
      rcases List.mem_pair.mp ht with rfl | rfl
      · exact ⟨"c", "9", by decide, by decide, .inr (by decide)⟩
      · exact ⟨"c", "3=x", by decide, by decide, .inr (by decide)⟩)
    (Prod.ext (by decide +kernel) rfl) (by decide +kernel) (Prod.ext (by decide +kernel) rfl)
    (by decide +kernel) (by decide +kernel)
  have hvars : (Variables.resolve layeredFiles layeredDefaults
      (said layeredConfiguration "s" ["c=9", "c=3=x"]) (Path.ofString "o")
      (Path.ofString "h/templates/t") none).map
        (fun vars => ["a", "b", "c", "d", "e", "_LINUX"].map vars.get?) =
      .ok [some "1", some "2", some "3=x", some "3=x", some "5", some "true"] := by
    decide +kernel
  split at hload
  · rename_i e hu
    have hdir : Variables.directoryName layeredFiles (Path.ofString "o") = .ok "o" := by
      decide +kernel
    cases hdir.symm.trans hload.1
  · rename_i upper hu
    obtain ⟨-, hload⟩ := hload
    split at hload
    · rename_i e hr
      cases (congrArg (Except.map _) hr).symm.trans hvars
    · rename_i vars hr
      have hget := (congrArg (Except.map _) hr).symm.trans hvars
      exact ⟨vars, Except.ok.inj hget, hload.2.1⟩

end Cli

end Scaffold
