import Mathlib
import Scaffold.Proofs.Manifest.Keys

namespace Scaffold

namespace Bindings

variable {α β : Type} {f : String → String} {R : α → β → Prop} {es : List (String × α)}
  {ds : List (String × β)}

def Alike (f : String → String) (R : α → β → Prop) (e : String × α) (d : String × β) : Prop :=
  d.1 = f e.1 ∧ R e.2 d.2

lemma put_alike (h : List.Forall₂ (Alike f R) es ds) {k : String} {a : α} {b : β} (hab : R a b)
    (hinj : ∀ e ∈ es, f e.1 = f k → e.1 = k) :
    List.Forall₂ (Alike f R) (put k a es) (put (f k) b ds) := by
  induction h with
  | nil => exact .cons ⟨rfl, hab⟩ .nil
  | @cons e d es ds hed hrest ih =>
    by_cases hk : e.1 = k
    · rw [put, if_pos hk, put, if_pos (hed.1.trans (congrArg f hk))]
      exact .cons ⟨rfl, hab⟩ hrest
    · have hfk : d.1 ≠ f k := fun h => hk (hinj e List.mem_cons_self (hed.1.symm.trans h))
      rw [put, if_neg hk, put, if_neg hfk]
      exact .cons hed (ih fun c hc => hinj c (List.mem_cons_of_mem e hc))

lemma insertAll_alike {b : Bindings α} {c : Bindings β} (h : List.Forall₂ (Alike f R) es ds)
    (hbc : List.Forall₂ (Alike f R) b.entries c.entries)
    (hinj : ∀ e ∈ b.entries ++ es, ∀ d ∈ b.entries ++ es, f e.1 = f d.1 → e.1 = d.1) :
    List.Forall₂ (Alike f R) (b.insertAll es).entries (c.insertAll ds).entries := by
  induction h generalizing b c with
  | nil => exact hbc
  | @cons e d es ds hed hrest ih =>
    have hput : List.Forall₂ (Alike f R) (b.insert e.1 e.2).entries (c.insert d.1 d.2).entries := by
      rw [hed.1]
      exact put_alike hbc hed.2 fun x hx =>
        hinj x (List.mem_append_left _ hx) e (List.mem_append_right _ List.mem_cons_self)
    refine ih hput ?_
    have hkeys : ∀ x ∈ (b.insert e.1 e.2).entries ++ es, ∃ y ∈ b.entries ++ e :: es, y.1 = x.1 := by
      intro x hx
      rcases List.mem_append.mp hx with hx | hx
      · have hx' : x.1 ∈ (put e.1 e.2 b.entries).map Prod.fst := List.mem_map_of_mem hx
        rcases (mem_keys_put e.1 x.1 e.2 b.entries).mp hx' with he | hb
        · exact ⟨e, List.mem_append_right _ List.mem_cons_self, he.symm⟩
        · obtain ⟨y, hy, hyx⟩ := List.mem_map.mp hb
          exact ⟨y, List.mem_append_left _ hy, hyx⟩
      · exact ⟨x, List.mem_append_right _ (List.mem_cons_of_mem e hx), rfl⟩
    intro x hx y hy
    obtain ⟨x', hx', hxx⟩ := hkeys x hx
    obtain ⟨y', hy', hyy⟩ := hkeys y hy
    rw [← hxx, ← hyy]
    exact hinj x' hx' y' hy'

lemma ofList_alike (h : List.Forall₂ (Alike f R) es ds)
    (hinj : ∀ e ∈ es, ∀ d ∈ es, f e.1 = f d.1 → e.1 = d.1) :
    List.Forall₂ (Alike f R) (ofList es).entries (ofList ds).entries :=
  insertAll_alike (b := empty) (c := empty) h .nil hinj

end Bindings

namespace Manifest

open Json (Value)
open Bindings

def RuleRespelled (v w : Value) : Prop :=
  w = v ∨ ∃ tag, v = .string tag ∧ w = .object [("action", .string tag)]

/-- The files of a manifest in another spelling. Keys may be written in the form in which entries
are looked up, if no two different ones have the same form. -/
structure FilesRespelled (rename : String → String) (files files' : List (String × Value)) :
    Prop where
  keys : ∀ k, rename k = k ∨ rename k = canonicalKey k
  distinct : (∀ k, rename k = k) ∨
    ∀ e ∈ files, ∀ d ∈ files, canonicalKey e.1 = canonicalKey d.1 → e.1 = d.1
  members : List.Forall₂ (Alike rename RuleRespelled) files files'

def SectionRespelled (name : String) (v w : Value) : Prop :=
  w = v ∨ name = "files" ∧ ∃ rename files files', v = .object files ∧ w = .object files' ∧
    FilesRespelled rename files files'

inductive Respelled : Value → Value → Prop
  | same (doc : Value) : Respelled doc doc
  | object {members members' : List (String × Value)}
      (h : List.Forall₂ (fun e d => d.1 = e.1 ∧ SectionRespelled e.1 e.2 d.2) members members') :
      Respelled (.object members) (.object members')

def Reads (fs : FileSystem) (path : Path) (doc : Value) : Prop :=
  ∃ bytes s, fs.readFile path = .ok bytes ∧ Text.Utf8.decode bytes = .ok s ∧
    Json.parse? dialect s.toList = some doc

section

variable {files files' members members' : List (String × Value)} {rename : String → String}
  {v w doc doc' : Value} {name : String}

lemma checkRule_respelled (h : RuleRespelled v w) (key : String) :
    checkRule key w = checkRule key v := by
  rcases h with rfl | ⟨tag, rfl, rfl⟩
  · rfl
  · have haction : Value.member? [("action", .string tag)] "action" = some (.string tag) := rfl
    have hname : Value.member? [("action", .string tag)] "name" = none := rfl
    rw [checkRule, checkRule, haction, hname]
    dsimp only
    cases checkAction ["files", key, "action"] (.string tag) <;> rfl

lemma checkAll_alike {α : Type} {check : String → Value → Checked α} {es ds : List (String × Value)}
    (h : List.Forall₂ (Alike id fun v w => ∀ key, check key w = check key v) es ds) :
    checkAll check ds = checkAll check es := by
  induction h with
  | nil => rfl
  | @cons e d es ds hed _ ih =>
    obtain ⟨k, v⟩ := e
    obtain ⟨j, w⟩ := d
    obtain ⟨rfl, hvw⟩ : j = k ∧ _ := hed
    rw [checkAll, checkAll, hvw, ih]

lemma FilesRespelled.canonicalKey_rename (h : FilesRespelled rename files files') (k : String) :
    canonicalKey (rename k) = canonicalKey k := by
  rcases h.keys k with hk | hk
  · rw [hk]
  · rw [hk, canonicalKey_canonicalKey]

lemma FilesRespelled.rename_injective (h : FilesRespelled rename files files') :
    ∀ e ∈ files, ∀ d ∈ files, rename e.1 = rename d.1 → e.1 = d.1 := by
  intro e he d hd hr
  rcases h.distinct with hsame | hdistinct
  · rwa [hsame, hsame] at hr
  · apply hdistinct e he d hd
    rw [← h.canonicalKey_rename, hr, h.canonicalKey_rename]

lemma FilesRespelled.checkDictionary_eq (h : FilesRespelled rename files files')
    (place : List String) :
    checkDictionary canonicalKey checkRule (.object files') place =
      checkDictionary canonicalKey checkRule (.object files) place := by
  have hentries := ofList_alike h.members h.rename_injective
  have hcanonical : List.Forall₂ (Alike id RuleRespelled)
      ((ofList files).entries.map fun e => (canonicalKey e.1, e.2))
      ((ofList files').entries.map fun e => (canonicalKey e.1, e.2)) := by
    rw [List.forall₂_map_left_iff, List.forall₂_map_right_iff]
    refine hentries.imp fun e d hed => ⟨?_, hed.2⟩
    dsimp only [id_eq]
    rw [hed.1, h.canonicalKey_rename]
  have hlast := ofList_alike hcanonical fun _ _ _ _ => id
  have hall := checkAll_alike (hlast.imp fun e d hed => ⟨hed.1, checkRule_respelled hed.2⟩)
  rw [checkDictionary, checkDictionary, hall]

lemma member?_alike
    (h : List.Forall₂ (fun e d => d.1 = e.1 ∧ SectionRespelled e.1 e.2 d.2) members members')
    (name : String) :
    Option.Rel (SectionRespelled name) (Value.member? members name)
      (Value.member? members' name) := by
  have hfold : ∀ {a b : Option Value}, Option.Rel (SectionRespelled name) a b →
      Option.Rel (SectionRespelled name)
        (members.foldl (fun found m => if m.1 = name then some m.2 else found) a)
        (members'.foldl (fun found m => if m.1 = name then some m.2 else found) b) := by
    induction h with
    | nil => exact id
    | @cons e d _ _ hed _ ih =>
      intro a b hab
      rw [List.foldl_cons, List.foldl_cons, hed.1]
      apply ih
      by_cases hn : e.1 = name
      · rw [if_pos hn, if_pos hn]
        exact .some (hn ▸ hed.2)
      · rwa [if_neg hn, if_neg hn]
  exact hfold .none

lemma section?_alike
    (h : List.Forall₂ (fun e d => d.1 = e.1 ∧ SectionRespelled e.1 e.2 d.2) members members')
    {names : List String} (hnames : "files" ∉ names) :
    (section? members' names) = section? members names := by
  induction names with
  | nil => rfl
  | cons name names ih =>
    obtain ⟨hne, hnames⟩ := List.ne_and_not_mem_of_not_mem_cons hnames
    have hmember : Value.member? members' name = Value.member? members name := by
      have hs := member?_alike h name
      generalize Value.member? members name = v?, Value.member? members' name = w? at hs
      rcases hs with hs | _
      · rcases hs with rfl | ⟨rfl, -⟩
        · rfl
        · exact absurd rfl hne
      · rfl
    have hrest := ih hnames
    simp only [section?, List.findSome?_cons, hmember] at hrest ⊢
    rw [hrest]

lemma checkFiles_alike
    (h : List.Forall₂ (fun e d => d.1 = e.1 ∧ SectionRespelled e.1 e.2 d.2) members members') :
    checkSection (section? members' ["files"]) ∅ (checkDictionary canonicalKey checkRule) =
      checkSection (section? members ["files"]) ∅ (checkDictionary canonicalKey checkRule) := by
  rw [section?, section?, List.findSome?_cons, List.findSome?_cons]
  have hs := member?_alike h "files"
  generalize Value.member? members "files" = v?, Value.member? members' "files" = w? at hs
  rcases hs with hs | _
  · rcases hs with rfl | ⟨-, rename, files, files', rfl, rfl, hfiles⟩
    · rfl
    · exact hfiles.checkDictionary_eq ["files"]
  · rfl

lemma check_respelled (h : Respelled doc doc') : check doc' = check doc := by
  cases h with
  | same => rfl
  | object h =>
    have halike (names : List String) (hne : "files" ∉ names) := section?_alike h hne
    rw [check, check, checkFiles_alike h, halike _ (by decide), halike _ (by decide),
      halike _ (by decide), halike _ (by decide)]

theorem load_respelled {fs fs' : FileSystem} {path : Path} (h : Respelled doc doc')
    (hdoc : Reads fs path doc) (hdoc' : Reads fs' path doc') : load fs' path = load fs path := by
  obtain ⟨bytes, s, hread, hdecode, hparse⟩ := hdoc
  obtain ⟨bytes', s', hread', hdecode', hparse'⟩ := hdoc'
  have hload : decode bytes' = decode bytes := by
    simp only [decode, hdecode, hdecode', hparse, hparse', check_respelled h]
  rw [load, load, hread, hread']
  exact congrArg (Except.mapError (Failure.manifestInvalid path)) hload

end

def holding (s : String) : FileSystem :=
  FileSystem.empty.set ["m"] (.file s.toUTF8 0o644)

def shortSpelling : String :=
  "\x7b\"files\": \x7b\"./a\": \"No\", \"b\": 3, \"c//\": \"Copy\"\x7d, \"vars\": 1\x7d"

def longSpelling : String :=
  "\x7b\"files\": \x7b\"a\": \x7b\"action\": \"No\"\x7d, \"b\": 3, " ++
    "\"c\": \x7b\"action\": \"Copy\"\x7d\x7d, \"vars\": 1\x7d"

def shortFiles : List (String × Value) :=
  [("./a", .string "No"), ("b", .number (.int 3)), ("c//", .string "Copy")]

def longFiles : List (String × Value) :=
  [("a", .object [("action", .string "No")]), ("b", .number (.int 3)),
    ("c", .object [("action", .string "Copy")])]

theorem load_respelled_invalid :
    load (holding longSpelling) (Path.ofString "m") =
      .error (.manifestInvalid (Path.ofString "m") [⟨.unknownAction, ["files", "a", "action"]⟩,
        ⟨.notObject, ["files", "b"]⟩, ⟨.notDictionary, ["vars"]⟩]) := by
  have hfiles : FilesRespelled canonicalKey shortFiles longFiles :=
    { keys := fun _ => .inr rfl
      distinct := .inr (by decide +kernel)
      members := .cons ⟨by decide +kernel, .inr ⟨"No", rfl, rfl⟩⟩
        (.cons ⟨by decide +kernel, .inl rfl⟩
          (.cons ⟨by decide +kernel, .inr ⟨"Copy", rfl, rfl⟩⟩ .nil)) }
  have hdoc : Respelled (.object [("files", .object shortFiles), ("vars", .number (.int 1))])
      (.object [("files", .object longFiles), ("vars", .number (.int 1))]) :=
    .object (.cons ⟨rfl, .inr ⟨rfl, canonicalKey, _, _, rfl, rfl, hfiles⟩⟩
      (.cons ⟨rfl, .inl rfl⟩ .nil))
  have hshort : Reads (holding shortSpelling) (Path.ofString "m")
      (.object [("files", .object shortFiles), ("vars", .number (.int 1))]) :=
    ⟨_, shortSpelling, by decide +kernel, Text.Utf8.decode_toUTF8 _, by cbv⟩
  have hlong : Reads (holding longSpelling) (Path.ofString "m")
      (.object [("files", .object longFiles), ("vars", .number (.int 1))]) :=
    ⟨_, longSpelling, by decide +kernel, Text.Utf8.decode_toUTF8 _, by cbv⟩
  rw [load_respelled hdoc hshort hlong]
  decide +kernel

end Manifest

end Scaffold
