import Scaffold.Proofs.Walk.Containing
import Scaffold.Proofs.Walk.Outcome

/-! What stands outside of a destination while a template is materialized there, with success or
without. -/

namespace Scaffold

namespace Walk

open Attempt FileAction FileSystem

lemma materialize_snd_of_fails {m : Manifest} {ctx : Context} {root dest : Path} {fs : FileSystem}
    {T : Location} (hroot : fs.Leads root T) (h : Fails (makeDirectories dest fs)) :
    (materialize m ctx root dest fs).2 = (makeDirectories dest fs).2 := by
  have hvisit := materializeVisit_root m ctx dest hroot
  have hfails : Fails (materializeVisit m ctx root ⟨root, dest⟩ fs) := by
    rw [hvisit]
    exact fails_mapFailure (fails_bind_left h _) _
  rw [materialize, run_of_fails hfails, hvisit, mapFailure_snd, openDirectory, bind_snd_of_fails h]

lemma no_link_of_linkless {fs : FileSystem} {T : Location} {f : Forest} (h : f.Linkless)
    (hf : fs.Holds T (.directory f)) (names : List Name) (target : String) :
    fs.get? (under T names) ≠ some (.link target) := by
  have ht : (Tree.directory f).Linkless := h
  have hget := hf (names.map Subtype.val).reverse
  rw [List.reverse_reverse] at hget
  rw [under, hget]
  exact ht.entryAt_ne _ target

/-- Whether a template is materialized with success or not, where nothing is: what stands outside
of the destination stays as it is, but for missing directories above. The one exception is a walk
that is led astray by a link that it has put where a directory is to be, and no template without
links leads astray. -/
theorem materialize_outside (m : Manifest) (ctx : Context) (root dest : Path) (fs : FileSystem)
    (T : Location) (hroot : fs.Leads root T) (hdest : fs.Absent dest)
    (hout : ∀ D, fs.Missing dest D → ¬ T <:+ D) :
    Fails (makeDirectories dest fs) ∧ Fails (materialize m ctx root dest fs) ∧
        fs.Prepares (materialize m ctx root dest fs).2 dest ∨
    ∃ D f, fs.Missing dest D ∧ fs.Holds T (.directory f) ∧ f.Sorted ∧
      (f.Linkless → f.made m ctx root (fun g => g.writeTo (fs.openTo D) D) [] dest .nil ≠
        .error .astray) ∧
      (f.made m ctx root (fun g => g.writeTo (fs.openTo D) D) [] dest .nil ≠ .error .astray →
        ∀ l, ¬ D <:+ l → (materialize m ctx root dest fs).2.get? l =
          if l <:+ D then some .directory else fs.get? l) := by
  rcases hdest.staged hroot hout with hfail | ⟨D, f, hD, ht, hs, w, s⟩
  · refine .inl ⟨hfail, fails_materialize hroot hfail, ?_⟩
    rw [materialize_snd_of_fails hroot hfail]
    exact makeDirectories_prepares dest fs
  have hmade := materialize_made m ctx hroot hD ht w s
  refine .inr ⟨D, f, hD, ht, hs, fun hlinks hastray => ?_, fun hstay l hl => ?_⟩
  · rw [hastray] at hmade
    obtain ⟨outs, target, ⟨names, action, -, hlink⟩, -⟩ := hmade
    exact no_link_of_linkless hlinks ht names target hlink
  rcases hg : f.made m ctx root (fun g => g.writeTo (fs.openTo D) D) [] dest .nil with
    (_ | _) | g
  · have hkept : Contained (materializeVisit m ctx root)
        (f.names.map (Pair.child ⟨sourceAt root [], dest⟩ dest)) (fs.openTo D) D
        (f.made m ctx root (fun g => g.writeTo (fs.openTo D) D) [] dest .nil) :=
      f.made_contained m ctx root w s trivial hs fun _ _ h => h
    rw [hg] at hkept
    rw [materialize_opened m ctx hroot hD s, ← hD.opened.2.1.get?]
    exact (hkept []).outside.get? l hl
  · exact absurd hg hstay
  · rw [hg] at hmade
    rw [hmade.1]
    exact hmade.2.2 l hl

lemma strayFiles_missing : strayFiles.Missing ⟨.relative, [⟨"o", rfl⟩]⟩ ["o"] := .vacant rfl

lemma strayFiles_absent : strayFiles.Absent ⟨.relative, [⟨"o", rfl⟩]⟩ := by
  refine ⟨fun l e h => ?_, fun n names hn hup => ?_⟩
  · cases h
  · obtain rfl : n = ⟨"o", rfl⟩ := List.mem_singleton.mp (hn.subset List.mem_cons_self)
    simp at hup

def strayManifest : Manifest :=
  { Manifest.empty with files := .ofList [("b", ⟨.auto, "a"⟩)] }

theorem materialize_outside_stray :
    (materialize Manifest.empty ⟨∅, .here⟩ ⟨.relative, [⟨"t", rfl⟩]⟩ ⟨.relative, [⟨"o", rfl⟩]⟩
      strayFiles).2.get? ["f", "e"] = none := by
  have hproper : strayTemplate.Proper :=
    ⟨rfl, by decide, trivial, rfl, by decide, ⟨rfl, by decide, trivial, trivial⟩, trivial⟩
  have hsorted : strayTemplate.Sorted :=
    ⟨by decide, trivial, by decide, ⟨by decide, trivial, trivial⟩, trivial⟩
  have hempty : ((FileSystem.empty.set ["t"] .directory).set ["e"] .directory).Holds ["t"]
      (.directory .nil) :=
    (Tree.holds_writeTo (.directory .nil) trivial rfl rfl).1.agrees (agrees_set _ ["e"] .directory)
      (by decide) (by decide)
  have hholds : strayFiles.Holds ["t"] (.directory strayTemplate) :=
    (Forest.holds_writeTo hproper hempty).1
  rcases materialize_outside Manifest.empty ⟨∅, .here⟩ ⟨.relative, [⟨"t", rfl⟩]⟩
    ⟨.relative, [⟨"o", rfl⟩]⟩ strayFiles ["t"] rfl strayFiles_absent
    (fun D hD => strayFiles_missing.unique hD ▸ by decide) with ⟨⟨e, he⟩, -⟩ | ⟨D, f, hD, hf, hs, -, h⟩
  · rw [strayFiles_missing.opened.1] at he
    cases he
  · obtain rfl := strayFiles_missing.unique hD
    obtain rfl : f = strayTemplate := Tree.directory.inj (hf.unique hholds hs hsorted)
    rw [h (by decide +kernel) ["f", "e"] (by decide)]
    decide +kernel

/-- A directory that takes the name of a link is written through the link. -/
theorem materialize_through_link :
    strayFiles.Leads ⟨.relative, [⟨"t", rfl⟩]⟩ ["t"] ∧
    strayFiles.Absent ⟨.relative, [⟨"o", rfl⟩]⟩ ∧
    (∀ D, strayFiles.Missing ⟨.relative, [⟨"o", rfl⟩]⟩ D → D = ["o"]) ∧
    strayFiles.get? ["f", "e"] = none ∧
    (materialize strayManifest ⟨∅, .here⟩ ⟨.relative, [⟨"t", rfl⟩]⟩ ⟨.relative, [⟨"o", rfl⟩]⟩
      strayFiles).2.get? ["f", "e"] = some (.file "new".toUTF8 0o644) := by
  have hrun : ((runWithin (materializeVisit strayManifest ⟨∅, .here⟩ ⟨.relative, [⟨"t", rfl⟩]⟩) 4
      [⟨⟨.relative, [⟨"t", rfl⟩]⟩, ⟨.relative, [⟨"o", rfl⟩]⟩⟩] strayFiles).map
      fun r => r.2.get? ["f", "e"]) = some (some (.file "new".toUTF8 0o644)) := by
    decide +kernel
  obtain ⟨r, hr, hget⟩ := Option.map_eq_some_iff.mp hrun
  refine ⟨rfl, strayFiles_absent, fun D hD => strayFiles_missing.unique hD ▸ rfl,
    by decide +kernel, ?_⟩
  rw [materialize, run_of_runWithin hr]
  exact hget

end Walk

end Scaffold
