import Mathlib.Data.List.Induction
import Mathlib.Tactic.Common
import Scaffold.Manifest.Decode
import Scaffold.Proofs.Bindings
import Scaffold.Proofs.Paths
import Scaffold.Proofs.Walk.Making

namespace Scaffold

lemma pieces_eq_splitOn (sep : Char) (cs : List Char) : pieces sep cs = cs.splitOn sep := by
  induction cs with
  | nil => rfl
  | cons c cs ih =>
    obtain ⟨p, ps, hp⟩ := List.exists_cons_of_ne_nil (pieces_ne_nil sep cs)
    rw [List.splitOn, List.splitOnP_cons_eq_if_modifyHead, ← List.splitOn, ← ih, pieces, hp]
    by_cases hc : c = sep <;> simp [hc]

lemma subset_of_mem_pieces {sep : Char} {cs p : List Char} (hp : p ∈ pieces sep cs) :
    p ⊆ cs ∧ sep ∉ p := by
  induction cs generalizing p with
  | nil =>
    obtain rfl := List.mem_singleton.mp hp
    exact ⟨List.Subset.refl _, List.not_mem_nil⟩
  | cons c cs ih =>
    obtain ⟨q, qs, hq⟩ := List.exists_cons_of_ne_nil (pieces_ne_nil sep cs)
    rw [pieces, hq] at hp
    rw [hq] at ih
    dsimp only at hp
    split_ifs at hp with hc
    · rcases List.mem_cons.mp hp with rfl | hp
      · exact ⟨List.nil_subset _, List.not_mem_nil⟩
      · exact ⟨List.subset_cons_of_subset c (ih hp).1, (ih hp).2⟩
    · rcases List.mem_cons.mp hp with rfl | hp
      · obtain ⟨hsub, hsep⟩ := ih List.mem_cons_self
        refine ⟨List.cons_subset_cons c hsub, fun hm => ?_⟩
        exact (List.mem_cons.mp hm).elim (fun h => hc h.symm) hsep
      · obtain ⟨hsub, hsep⟩ := ih (List.mem_cons_of_mem q hp)
        exact ⟨List.subset_cons_of_subset c hsub, hsep⟩

namespace Path

section

variable {p q : Path} {c : Char} {cs : List Char} {n : Name}

lemma text_injective (h : p.text = q.text) : p = q := by
  rw [← ofString_text p, h, ofString_text]

lemma val_namesOf (cs : List Char) : (namesOf cs).map Subtype.val =
    ((cs.splitOn '/').map String.ofList).filter fun s => s ≠ "" ∧ s ≠ "." := by
  rw [namesOf, ← pieces_eq_splitOn]
  have hslash : ∀ s ∈ (pieces '/' cs).map String.ofList, '/' ∉ s.toList := by
    intro s hs
    obtain ⟨p, hp, rfl⟩ := List.mem_map.mp hs
    simpa using (subset_of_mem_pieces hp).2
  generalize (pieces '/' cs).map String.ofList = l at hslash
  induction l with
  | nil => rfl
  | cons s l ih =>
    have hl := ih fun t ht => hslash t (List.mem_cons_of_mem s ht)
    have hs := hslash s List.mem_cons_self
    by_cases hname : isName s = true
    · obtain ⟨hempty, hdot, -⟩ := (isName_iff s).mp hname
      simp [Name.ofString?, hname, hempty, hdot, hl]
    · have hno : ¬ (s ≠ "" ∧ s ≠ ".") := fun h => hname ((isName_iff s).mpr ⟨h.1, h.2, hs⟩)
      rw [List.filterMap_cons, Name.ofString?, dif_neg hname,
        List.filter_cons_of_neg (by simpa using hno)]
      exact hl

lemma subset_of_mem_namesOf (hn : n ∈ namesOf cs) : n.1.toList ⊆ cs := by
  obtain ⟨s, hs, hof⟩ := List.mem_filterMap.mp hn
  obtain ⟨p, hp, rfl⟩ := List.mem_map.mp hs
  rw [Name.ofString?] at hof
  split_ifs at hof
  cases hof
  simpa using (subset_of_mem_pieces hp).1

lemma mem_intercalate {l : List (List Char)} (hc : c ≠ '/') :
    c ∈ ['/'].intercalate l ↔ ∃ a ∈ l, c ∈ a := by
  induction l with
  | nil => simp
  | cons a l ih =>
    cases l with
    | nil => simp
    | cons b l =>
      rw [List.intercalate_cons_cons, List.mem_append, List.mem_append, List.mem_singleton, ih]
      simp [hc]

lemma text_of_names {names : List Name} (h : names ≠ []) :
    text ⟨.relative, names⟩ = String.intercalate "/" (steps ⟨.relative, names⟩) := by
  rw [text, if_neg (by simp [here, h])]
  exact String.empty_append

lemma anchorOf_slash (h : cs.head? = some '/') : anchorOf cs ≠ .relative := by
  obtain ⟨ds, rfl⟩ := List.head?_eq_some_iff.mp h
  unfold anchorOf
  split <;> simp_all
  split_ifs <;> simp

lemma mem_text (p : Path) (hc : c ≠ '/') (hdot : c ≠ '.') :
    c ∈ p.text.toList ↔ ∃ n ∈ p.names, c ∈ n.1.toList := by
  have hsteps : c ∈ (String.intercalate "/" p.steps).toList ↔ ∃ n ∈ p.names, c ∈ n.1.toList := by
    rw [toList_steps, mem_intercalate hc]
    simp [steps]
  have hanchor : c ∉ (anchorText p.anchor).toList := by cases p.anchor <;> simp [anchorText, hc]
  by_cases hp : p = here
  · subst hp
    simp [text, here, hdot]
  · rw [text, if_neg hp, String.toList_append, List.mem_append, hsteps]
    exact or_iff_right hanchor

end

end Path

namespace Manifest

open Json (Value)

def slashed (key : String) : List Char :=
  key.toList.map fun c => if c = '\\' then '/' else c

def simplified (key : String) : String :=
  let parts := (((slashed key).splitOn '/').map String.ofList).filter fun s => s ≠ "" ∧ s ≠ "."
  (if (slashed key).head? = some '/' then "/" else "") ++ String.intercalate "/" parts

def meant (key : String) : Path :=
  Path.ofString (String.ofList (slashed key))

section

variable {key rel : String} {names : List Name} {m : Manifest}
  {members files es : List (String × Value)}

lemma canonicalKey_eq (key : String) : canonicalKey key = (meant key).text := rfl

lemma meant_eq (key : String) :
    meant key = ⟨Path.anchorOf (slashed key), (Path.namesOf (slashed key)).reverse⟩ := by
  rw [meant, Path.ofString_eq, String.toList_ofList]

lemma slashed_of_not_mem (h : '\\' ∉ key.toList) : slashed key = key.toList := by
  rw [slashed]
  refine (List.map_congr_left fun c hc => if_neg ?_).trans (List.map_id _)
  rintro rfl
  exact h hc

lemma not_mem_slashed (key : String) : '\\' ∉ slashed key := by
  rw [slashed, List.mem_map]
  rintro ⟨c, -, hc⟩
  split_ifs at hc with h
  · cases hc
  · exact h hc

lemma not_mem_meant {n : Name} (hn : n ∈ (meant key).names) : '\\' ∉ n.1.toList := by
  rw [meant_eq] at hn
  exact fun hc => not_mem_slashed key (Path.subset_of_mem_namesOf (List.mem_reverse.mp hn) hc)

lemma canonicalKey_text {p : Path} (h : ∀ n ∈ p.names, '\\' ∉ n.1.toList) :
    canonicalKey p.text = p.text := by
  have hmem : '\\' ∉ p.text.toList := by
    rw [p.mem_text (by decide) (by decide)]
    rintro ⟨n, hn, hc⟩
    exact h n hn hc
  rw [canonicalKey_eq, meant, slashed_of_not_mem hmem, String.ofList_toList, Path.ofString_text]

lemma canonicalKey_canonicalKey (key : String) :
    canonicalKey (canonicalKey key) = canonicalKey key :=
  canonicalKey_text fun _ => not_mem_meant

lemma meant_of_canonicalKey {p : Path} (h : canonicalKey key = p.text) : meant key = p :=
  Path.text_injective h

lemma canonicalKey_ne {p : Path} {n : Name} (hn : n ∈ p.names) (hc : '\\' ∈ n.1.toList)
    (key : String) : canonicalKey key ≠ p.text := by
  intro h
  rw [← meant_of_canonicalKey h] at hn
  exact not_mem_meant hn hc

lemma simplified_eq (key : String) : simplified key =
    (if (slashed key).head? = some '/' then "/" else "") ++
      String.intercalate "/" (meant key).steps := by
  rw [meant_eq, Path.steps, List.map_reverse, List.reverse_reverse, Path.val_namesOf]
  rfl

lemma simplified_of_relative (h : (slashed key).head? ≠ some '/') (hne : (meant key).names ≠ []) :
    simplified key = canonicalKey key := by
  have hanchor : (meant key).anchor = .relative := by
    rw [meant_eq]
    exact Path.anchorOf_of_head_ne _ h
  rw [simplified_eq, if_neg h, String.empty_append, canonicalKey_eq]
  generalize meant key = p at hanchor hne
  obtain ⟨anchor, ns⟩ := p
  obtain rfl : anchor = .relative := hanchor
  exact (Path.text_of_names hne).symm

lemma canonicalKey_eq_iff (key : String) (hne : names ≠ []) :
    canonicalKey key = Path.text ⟨.relative, names⟩ ↔
      simplified key = Path.text ⟨.relative, names⟩ := by
  obtain ⟨c, cs, hcs, hc⟩ := Path.head_steps (p := ⟨.relative, names⟩) hne
  rw [← Path.text_of_names hne] at hcs
  by_cases habs : (slashed key).head? = some '/'
  · -- What begins with a slash is the path of no entry, in either form.
    refine iff_of_false (fun h => ?_) fun h => ?_
    · have hanchor := congrArg Path.anchor (meant_of_canonicalKey h)
      rw [meant_eq] at hanchor
      exact Path.anchorOf_slash habs hanchor
    · rw [simplified_eq, if_pos habs] at h
      rw [← h, String.toList_append] at hcs
      exact hc (List.cons.inj hcs).1.symm
  by_cases hnone : (meant key).names = []
  · refine iff_of_false (fun h => ?_) fun h => ?_
    · rw [meant_of_canonicalKey h] at hnone
      exact hne hnone
    · rw [simplified_eq, if_neg habs, Path.steps, hnone] at h
      rw [← h] at hcs
      cases hcs
  · rw [simplified_of_relative habs hnone]

lemma both_eq_ok {α β : Type} {a : Checked α} {b : Checked β} {r : α × β}
    (h : both a b = .ok r) : a = .ok r.1 ∧ b = .ok r.2 := by
  rcases a with ps | x <;> rcases b with qs | y <;> cases h
  exact ⟨rfl, rfl⟩

lemma map_eq_ok {α β : Type} {f : α → β} {a : Checked α} {y : β} (h : a.map f = .ok y) :
    ∃ x, a = .ok x ∧ f x = y := by
  rcases a with ps | x
  · cases h
  · exact ⟨x, rfl, Except.ok.inj h⟩

lemma find_checkAll {α : Type} {check : String → Value → Checked α} {bs : List (String × α)}
    (h : checkAll check es = .ok bs) (k : String) :
    bs.map Prod.fst = es.map Prod.fst ∧
    match Bindings.find k es with
    | none => Bindings.find k bs = none
    | some v => ∃ b, check k v = .ok b ∧ Bindings.find k bs = some b := by
  induction es generalizing bs with
  | nil =>
    cases h
    exact ⟨rfl, rfl⟩
  | cons e es ih =>
    obtain ⟨j, v⟩ := e
    obtain ⟨⟨b, cs⟩, hboth, rfl⟩ := map_eq_ok h
    obtain ⟨hb, hcs⟩ := both_eq_ok hboth
    obtain ⟨hkeys, hfind⟩ := ih hcs
    refine ⟨congrArg (j :: ·) hkeys, ?_⟩
    by_cases hk : j = k
    · subst hk
      simpa [Bindings.find] using hb
    · simpa [Bindings.find, hk] using hfind

lemma find_reverse_eq_getLast? (key : String → String) (es : List (String × Value)) (k : String) :
    Bindings.find k (es.map fun e => (key e.1, e.2)).reverse =
      ((es.filter fun e => key e.1 = k).getLast?).map Prod.snd := by
  induction es using List.reverseRecOn with
  | nil => rfl
  | append_singleton es e ih =>
    rw [List.map_append, List.reverse_append, List.map_singleton, List.reverse_singleton,
      List.singleton_append, Bindings.find, List.filter_append]
    by_cases hk : key e.1 = k
    · simp [hk]
    · simpa [hk] using ih

lemma files_of_check (hfiles : Value.member? members "files" = some (.object files))
    (hm : check (.object members) = .ok m) :
    checkDictionary canonicalKey checkRule (.object files) ["files"] = .ok m.files := by
  obtain ⟨⟨_, _, _, fs, _⟩, hall, rfl⟩ := map_eq_ok hm
  have hrest := (both_eq_ok (both_eq_ok (both_eq_ok (both_eq_ok hall).2).2).2).1
  have hsection : section? members ["files"] = some ("files", .object files) := by
    rw [section?, List.findSome?_cons, hfiles]
    rfl
  rw [hsection] at hrest
  exact hrest

lemma get?_files (hkeys : (files.map Prod.fst).Nodup)
    (h : checkDictionary canonicalKey checkRule (.object files) ["files"] = .ok m.files)
    (rel : String) :
    match (files.filter fun e => canonicalKey e.1 = rel).getLast? with
    | some e => ∃ rule, checkRule rel e.2 = .ok rule ∧ m.lookup rel = some rule
    | none => m.lookup rel = none := by
  have hentries : (Bindings.ofList files).entries = files :=
    Bindings.insertAll_entries (b := Bindings.empty) hkeys
  obtain ⟨bs, hall, hbs⟩ := map_eq_ok h
  rw [hentries] at hall
  obtain ⟨hsame, hfind⟩ := find_checkAll hall rel
  have hnodup : (bs.map Prod.fst).Nodup := hsame ▸ (Bindings.ofList _).nodup
  have hlookup : m.lookup rel = Bindings.find rel bs := by
    rw [lookup, ← hbs, Bindings.get?_ofList, Bindings.find_reverse hnodup]
  have hlast := Bindings.get?_ofList (files.map fun e => (canonicalKey e.1, e.2)) rel
  rw [find_reverse_eq_getLast?, Bindings.get?] at hlast
  rw [hlast] at hfind
  cases hg : (files.filter fun e => canonicalKey e.1 = rel).getLast? with
  | none =>
    rw [hg] at hfind
    exact hlookup.trans hfind
  | some e =>
    rw [hg] at hfind
    obtain ⟨rule, hrule, hget⟩ := hfind
    exact ⟨rule, hrule, hlookup.trans hget⟩

theorem lookup_selects (m : Manifest) (members files : List (String × Value)) (root : Path)
    (names : List Name) (hfiles : Value.member? members "files" = some (.object files))
    (hkeys : (files.map Prod.fst).Nodup) (hm : check (.object members) = .ok m)
    (hne : names ≠ []) :
    ∃ rel, Walk.pathBelow root (Walk.sourceAt root names) = .ok rel ∧
      (match (files.filter fun e => simplified e.1 = rel).getLast? with
        | some e => ∃ rule, checkRule rel e.2 = .ok rule ∧ m.lookup rel = some rule
        | none => m.lookup rel = none) ∧
      (∀ key, canonicalKey (canonicalKey key) = canonicalKey key) ∧
      ((∀ n ∈ names, '\\' ∉ n.1.toList) → canonicalKey rel = rel) ∧
      ((∃ n ∈ names, '\\' ∈ n.1.toList) →
        (∀ key, canonicalKey key ≠ rel) ∧ m.lookup rel = none) := by
  have hlookup := get?_files hkeys (files_of_check hfiles hm) (Path.text ⟨.relative, names⟩)
  refine ⟨_, Walk.pathBelow_sourceAt root names, ?_, canonicalKey_canonicalKey,
    canonicalKey_text (p := ⟨.relative, names⟩), fun ⟨n, hn, hc⟩ => ?_⟩
  · simpa only [canonicalKey_eq_iff _ hne] using hlookup
  · have hno := canonicalKey_ne (p := ⟨.relative, names⟩) hn hc
    have hnone : files.filter (fun e => canonicalKey e.1 = Path.text ⟨.relative, names⟩) = [] :=
      List.filter_eq_nil_iff.mpr fun e _ => by simpa using hno e.1
    rw [hnone] at hlookup
    exact ⟨hno, hlookup⟩

def twiceSpelled : List (String × Value) :=
  [("a\\b", .string "Make"), ("./a//b/", .string "Copy"), ("/a/b", .string "Ignore")]

theorem lookup_selects_last :
    check (.object [("files", .object twiceSpelled)]) =
      .ok { empty with files := .ofList [("a/b", ⟨.copy, ""⟩), ("/a/b", ⟨.ignore, ""⟩)] } ∧
    (Bindings.ofList [("a/b", (⟨.copy, ""⟩ : FileRule)), ("/a/b", ⟨.ignore, ""⟩)]).get? "a/b" =
      some ⟨.copy, ""⟩ := by
  have hm : check (.object [("files", .object twiceSpelled)]) =
      .ok { empty with files := .ofList [("a/b", ⟨.copy, ""⟩), ("/a/b", ⟨.ignore, ""⟩)] } := by
    decide +kernel
  obtain ⟨rel, hrel, hlast, -⟩ := lookup_selects _ _ twiceSpelled ⟨.relative, [⟨"t", rfl⟩]⟩
    [⟨"b", rfl⟩, ⟨"a", rfl⟩] rfl (by decide) hm (by simp)
  obtain rfl : rel = "a/b" := Except.ok.inj (hrel.symm.trans (by decide +kernel))
  have hfilter : (twiceSpelled.filter fun e => simplified e.1 = "a/b").getLast? =
      some ("./a//b/", .string "Copy") := by
    rfl
  rw [hfilter] at hlast
  obtain ⟨rule, hrule, hlookup⟩ := hlast
  cases hrule
  exact ⟨hm, hlookup⟩

end

end Manifest

end Scaffold
