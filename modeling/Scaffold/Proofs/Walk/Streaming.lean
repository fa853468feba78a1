import Scaffold.Proofs.Expr.Consulting
import Scaffold.Proofs.FileSystem.Refilling
import Scaffold.Proofs.Walk.Making
import Scaffold.Proofs.Walk.Sparing

/-! Files that are read, expanded and written piece by piece. This comes to the same as doing it at
once, unless an expansion asks for what is in the file that it goes into. -/

namespace Scaffold

/-- How files are buffered: what stands in a file at each point of the expansion that goes into it,
and how much is expanded of a file before it turns out not to be text. -/
structure Buffering where
  shown : FileSystem → Pair → List Nat → ByteArray
  heard : ByteArray → String

namespace FileSystem

def partly (fs : FileSystem) (dest : Path) (bytes : ByteArray) : FileSystem :=
  match fs.writeFile dest bytes with
  | .ok fs' => fs'
  | .error _ => fs

end FileSystem

namespace FileAction

open Attempt

def streamInto (b : Buffering) (source dest : Path) (ctx : Context) : FileAction Unit := do
  let _ ← ask FileSystem.readFile source
  change (·.writeFile · ByteArray.empty) dest
  let bytes ← ask FileSystem.readFile source
  writeRendering dest fun fs =>
    let expand := Expr.expandThrough (Expr.depthLimit fs)
      (fun point => fs.partly dest (b.shown fs ⟨source, dest⟩ point)) ctx
    match Text.Utf8.decode bytes with
    | .error f => do
      expand (b.heard bytes).toList
      .fail (.obstacle (.undecodable f.inStream))
    | .ok s => expand s.toList

end FileAction

namespace Walk

open Attempt FileAction

def filling (m : Manifest) (ctx : Context) (root : Path) (p : Pair) (fs : FileSystem) :
    Option Path :=
  if p.source = root then none
  else match fs.entryAt p.source, pathBelow root p.source with
    | .ok (.file ..), .ok rel =>
      match effective fs ctx (m.lookup rel) p.dest with
      | .ok (some (.make, out)) => some out
      | _ => none
    | _, _ => none

def streamVisit (b : Buffering) (m : Manifest) (ctx : Context) (root : Path) : Visit := fun p fs =>
  match filling m ctx root p fs with
  | none => materializeVisit m ctx root p fs
  | some out =>
    mapFailure (blameEntry p) (do
      makeRoom out
      streamInto b p.source out ctx
      copyMode p.source out
      pure (out, [])) fs

def streamed (b : Buffering) (m : Manifest) (ctx : Context) (root dest : Path) : FileAction Unit :=
  run (streamVisit b m ctx root) [⟨root, dest⟩]

def Heard (bytes : ByteArray) (text : String) : Prop :=
  match Text.Utf8.decode bytes with
  | .ok s => text = s
  | .error _ => ∃ rest, bytes = text.toUTF8 ++ rest

/-- The walk comes to a file, and this text of it is expanded into `out`, which is there and empty
then. -/
inductive Fills (m : Manifest) (ctx : Context) (root dest : Path) (fs : FileSystem) :
    Path → FileSystem → String → Prop
  | intro {p : Pair} {out : Path} {s s' : FileSystem} {bytes : ByteArray} {text : String}
      (hcomes : Comes (materializeVisit m ctx root) [⟨root, dest⟩] fs p s)
      (hfill : filling m ctx root p s = some out)
      (hempty : (makeRoom out >>= fun _ => change (·.writeFile · ByteArray.empty) out) s =
        (.ok (), s'))
      (hread : s'.readFile p.source = .ok bytes) (hheard : Heard bytes text) :
      Fills m ctx root dest fs out s' text

/-- No expansion of a file asks for what is in the file that it goes into. -/
def LooksAway (m : Manifest) (ctx : Context) (root dest : Path) (fs : FileSystem) : Prop :=
  ∀ out s text f path, Fills m ctx root dest fs out s text →
    Expr.Asks s ctx text.toList (f, path) → f ≠ .exists →
    ∀ content, Expr.readText (s.partly out content) path = Expr.readText s path

def Alike {α : Type} (x y : Except Failure α × FileSystem) : Prop :=
  x = y ∨ Fails x ∧ Fails y

section

variable {α β : Type} {x y : Except Failure α × FileSystem} {a a' : FileAction α}
  {f f' : α → FileAction β} {fs : FileSystem}

lemma alike_refl (x : Except Failure α × FileSystem) : Alike x x :=
  .inl rfl

lemma Alike.mapFailure (h : Alike (a fs) (a' fs)) (g : Failure → Failure) :
    Alike (Attempt.mapFailure g a fs) (Attempt.mapFailure g a' fs) := by
  rcases h with h | ⟨h, h'⟩
  · exact .inl (by rw [Attempt.mapFailure, Attempt.mapFailure, h])
  · exact .inr ⟨fails_mapFailure h g, fails_mapFailure h' g⟩

lemma Alike.bind (h : Alike (a fs) (a' fs))
    (hf : ∀ x t, a' fs = (.ok x, t) → Alike (f x t) (f' x t)) :
    Alike ((a >>= f) fs) ((a' >>= f') fs) := by
  rcases h with h | ⟨h, h'⟩
  · rcases ha : a' fs with ⟨e | x, t⟩
    · exact .inr ⟨fails_bind_left (h ▸ ⟨e, by rw [ha]⟩) f, fails_bind_left ⟨e, by rw [ha]⟩ f'⟩
    · rw [bind_of_ok (h.trans ha), bind_of_ok ha]
      exact hf x t ha
  · exact .inr ⟨fails_bind_left h f, fails_bind_left h' f'⟩

lemma run_alike {visit visit' : Visit} {work : List Pair} (ho : Orderly visit)
    (h : ∀ p s, Comes visit work fs p s → Alike (visit' p s) (visit p s)) :
    Alike (run visit' work fs) (run visit work fs) := by
  induction work, fs using run.induct visit with
  | case1 s =>
    rw [run_nil, run_nil]
    exact alike_refl _
  | case2 s p rest e s' hv =>
    have hfails : Fails (visit p s) := ⟨e, by rw [hv]⟩
    rcases h p s (.here p rest s) with hsame | ⟨hfails', -⟩
    · rw [run_of_error hv, run_of_error (hsame.trans hv)]
      exact alike_refl _
    · exact .inr ⟨fails_run hfails', fails_run hfails⟩
  | case3 s p rest out names s' hv hlen ih =>
    rcases h p s (.here p rest s) with hsame | ⟨-, e, he⟩
    · rw [run_of_ok hv (ho.short hv), run_of_ok (hsame.trans hv) (ho.short hv)]
      exact ih fun q t hq => h q t (.next hv hq)
    · rw [hv] at he
      cases he
  | case4 s p rest out names s' hv hlen ih => exact absurd (Path.length_lt (ho.short hv)) hlen

end

section

variable {m : Manifest} {ctx : Context} {root dest out source : Path} {p : Pair} {fs : FileSystem}

lemma materializeVisit_of_filling (h : filling m ctx root p fs = some out) :
    materializeVisit m ctx root p fs = mapFailure (blameEntry p) (do
      makeRoom out
      expandInto p.source out ctx
      copyMode p.source out
      pure (out, [])) fs := by
  rw [filling] at h
  split_ifs at h with hroot
  rcases hentry : fs.entryAt p.source with r | (_ | ⟨bytes, mode⟩ | _ | _) <;>
    rcases hrel : pathBelow root p.source with e | rel <;>
    rw [hentry, hrel] at h <;>
    try cases h
  have heff : effective fs ctx (m.lookup rel) p.dest = .ok (some (.make, out)) := by
    rcases he : effective fs ctx (m.lookup rel) p.dest with e | (_ | ⟨_ | _ | _ | _, q⟩) <;>
      simp only [he, reduceCtorEq, Option.some.injEq] at h
    rw [h]
  have hlisted : ¬ (m.lookup rel = none ∧ rel = Manifest.fileName) := by
    rintro ⟨hnone, -⟩
    rw [hnone] at heff
    cases heff
  have hlook : look (fun fs => effective fs ctx (m.lookup rel) p.dest) fs =
      (.ok (some (.make, out)), fs) := by
    rw [look, heff]
  rw [materializeVisit, if_neg hroot, mapFailure, mapFailure, visitEntry,
    bind_of_ok (ask_of_ok hentry), hrel, settle_ok, bind_of_ok (pure_apply rel fs),
    if_neg hlisted, bind_of_ok hlook]
  rfl

lemma partly_agrees {s : FileSystem} {bytes : ByteArray} {q : Expr.Question}
    (h : fs.writeFile out bytes = .ok s) (content : ByteArray)
    (hread : q.1 ≠ .exists → Expr.readText (s.partly out content) q.2 = Expr.readText s q.2) :
    Expr.Agrees s (s.partly out content) q := by
  refine ⟨?_, hread⟩
  have hrefilled : s.Refilled (s.partly out content) := by
    rw [FileSystem.partly]
    cases hw : s.writeFile out content with
    | error r => exact .refl s
    | ok s' => exact FileSystem.refilled_of_writeFile h hw
  rw [Expr.present, Expr.present, hrefilled.exists?]

lemma fails_writeRendering {render : FileSystem → Expr.Rendering Unit} {e : Failure}
    (h : (render fs).result = .error e) : Fails (writeRendering out render fs) := by
  rw [writeRendering]
  cases hw : fs.writeFile out (String.ofList (render fs).text).toUTF8 with
  | error r => exact ⟨_, rfl⟩
  | ok fs' => exact ⟨e, h⟩

lemma fails_then (r : Expr.Rendering Unit) (f : Failure) :
    ∃ e, (r >>= fun _ => (Expr.Rendering.fail f : Expr.Rendering Unit)).result = .error e := by
  cases hr : r.result with
  | error e => exact ⟨e, by rw [Expr.Rendering.bind_of_error hr]⟩
  | ok a => exact ⟨f, by rw [Expr.Rendering.bind_of_ok hr]; rfl⟩

lemma streamInto_alike (b : Buffering)
    (haway : ∀ s bytes text f path,
      change (·.writeFile · ByteArray.empty) out fs = (.ok (), s) →
      s.readFile source = .ok bytes → Text.Utf8.decode bytes = .ok text →
      Expr.Asks s ctx text.toList (f, path) → f ≠ .exists →
      ∀ content, Expr.readText (s.partly out content) path = Expr.readText s path) :
    Alike (streamInto b source out ctx fs) (expandInto source out ctx fs) := by
  apply (alike_refl _).bind
  intro _ s₁ hopen
  obtain ⟨rfl, -⟩ := ask_state hopen
  apply (alike_refl _).bind
  rintro ⟨⟩ s hempty
  apply (alike_refl _).bind
  intro bytes s₂ hread
  obtain ⟨rfl, hread⟩ := ask_state hread
  cases htext : Text.Utf8.decode bytes with
  | error d =>
    obtain ⟨e, he⟩ := fails_then (Expr.expandThrough (Expr.depthLimit s₂)
      (fun point => s₂.partly out (b.shown s₂ ⟨source, out⟩ point)) ctx (b.heard bytes).toList)
      (.obstacle (.undecodable d.inStream))
    exact .inr ⟨fails_writeRendering he, ⟨_, rfl⟩⟩
  | ok text =>
    have hwhole : Expr.expandThrough (Expr.depthLimit s₂)
        (fun point => s₂.partly out (b.shown s₂ ⟨source, out⟩ point)) ctx text.toList =
          Expr.expand s₂ ctx text.toList :=
      Expr.expandThrough_eq fun q hq point => partly_agrees (change_eq_ok hempty) _
        fun hf => haway s₂ bytes text q.1 q.2 hempty hread htext hq hf _
    apply Or.inl
    simp only [writeRendering, hwhole]

lemma streamed_alike (b : Buffering) (haway : LooksAway m ctx root dest fs) :
    Alike (streamed b m ctx root dest fs) (materialize m ctx root dest fs) := by
  refine run_alike (materializeVisit_orderly m ctx root) fun p s hcomes => ?_
  rw [streamVisit]
  cases hfill : filling m ctx root p s with
  | none => exact alike_refl _
  | some out =>
    dsimp only
    rw [materializeVisit_of_filling hfill]
    apply Alike.mapFailure
    apply (alike_refl _).bind
    rintro ⟨⟩ s₁ hroom
    refine (streamInto_alike b fun s₂ bytes text f path hempty hread htext hq hf => ?_).bind
      fun _ _ _ => alike_refl _
    have hemptied : (makeRoom out >>= fun _ => change (·.writeFile · ByteArray.empty) out) s =
        (.ok (), s₂) := (bind_of_ok hroom _).trans hempty
    have hheard : Heard bytes text := by rw [Heard, htext]
    exact haway out s₂ text f path (.intro hcomes hfill hemptied hread hheard) hq hf

end

end Walk

end Scaffold
