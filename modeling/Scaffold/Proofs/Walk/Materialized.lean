import Scaffold.Proofs.Walk.Linkless
import Scaffold.Proofs.Walk.Making
import Scaffold.Proofs.Walk.Opening

namespace Scaffold

namespace Walk

open Attempt FileAction FileSystem

lemma materializeVisit_root (m : Manifest) (ctx : Context) {root : Path} (dest : Path)
    {fs : FileSystem} {T : Location} (hroot : fs.Leads root T) :
    materializeVisit m ctx root ⟨root, dest⟩ fs =
      mapFailure (blameEntry ⟨root, dest⟩) (openDirectory root dest) fs := by
  rw [materializeVisit, if_pos rfl, mapFailure, mapFailure, visitRoot,
    bind_of_ok (ask_of_ok hroot.isDirectory), if_pos rfl]

lemma materializeVisit_of_opened (m : Manifest) (ctx : Context) {root dest : Path}
    {fs fs' : FileSystem} {T D : Location} {f : Forest} (hroot : fs.Leads root T)
    (hmake : makeDirectories dest fs = (.ok (), fs')) (hs : Source fs' D root T f) :
    materializeVisit m ctx root ⟨root, dest⟩ fs = (.ok (dest, f.names), fs') := by
  rw [materializeVisit_root m ctx dest hroot]
  apply mapFailure_of_ok
  rw [openDirectory, bind_of_ok hmake, bind_of_ok (ask_of_ok hs.list)]
  rfl

lemma materialize_opened (m : Manifest) (ctx : Context) {root dest : Path} {fs : FileSystem}
    {T D : Location} {f : Forest} (hroot : fs.Leads root T) (hdest : fs.Missing dest D)
    (hs : Source (fs.openTo D) D root T f) :
    materialize m ctx root dest fs = run (materializeVisit m ctx root)
      (f.names.map (Pair.child ⟨root, dest⟩ dest) ++ []) (fs.openTo D) :=
  run_of_ok (materializeVisit_of_opened m ctx hroot hdest.opened.1 hs) (find_eq_walk hroot).2.1

lemma fails_materialize {m : Manifest} {ctx : Context} {root dest : Path} {fs : FileSystem}
    {T : Location} (hroot : fs.Leads root T) (h : Fails (makeDirectories dest fs)) :
    Fails (materialize m ctx root dest fs) := by
  apply fails_run
  rw [materializeVisit_root m ctx dest hroot]
  exact fails_mapFailure (fails_bind_left h _) _

end Walk

end Scaffold
