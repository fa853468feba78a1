import Scaffold.Proofs.Walk.Steps

/-! What a walk makes of a tree, by recursion on the tree: each entry is put into what has been made
before it. -/

namespace Scaffold

inductive Stop
  | failure
  | astray
  deriving DecidableEq

def Pair.check (p : Pair) : Except Stop Unit :=
  if p.source.byteLength ≤ pathLimit ∧ p.dest.byteLength ≤ pathLimit then .ok ()
  else .error .failure

namespace Walk

def overLeaf : Option Tree → Except Stop Unit
  | none | some (.file ..) | some (.link _) => .ok ()
  | some (.directory _) | some .pipe => .error .failure

def overDirectory : Option Tree → Except Stop Forest
  | none => .ok .nil
  | some (.directory f) => .ok f
  | some (.file ..) | some .pipe => .error .failure
  | some (.link _) => .error .astray

end Walk

open Walk

mutual

def Tree.copied (p : Pair) (old : Option Tree) : Tree → Except Stop Tree
  | .file bytes mode => do
    p.check
    overLeaf old
    pure (.file bytes mode)
  | .link target => do
    p.check
    overLeaf old
    pure (.link target)
  | .pipe => .error .failure
  | .directory f => do
    p.check
    let acc ← overDirectory old
    let g ← f.copied p acc
    pure (.directory g)

def Forest.copied (p : Pair) : Forest → Forest → Except Stop Forest
  | .nil, acc => pure acc
  | .cons n t rest, acc => do
    let u ← t.copied (p.child p.dest n) (acc.find? n.1)
    rest.copied p (acc.put n u)

end

namespace Walk

def naming (fs : FileSystem) (ctx : Context) (n : Name) :
    Option FileRule → Except Stop (Option (Action × Name))
  | none => .ok (some (.auto, n))
  | some rule =>
    if rule.action = .ignore then .ok none
    else if rule.name = "" then .ok (some (rule.action, n))
    else match Expr.expandString fs ctx rule.name with
      | .error _ => .error .failure
      | .ok s =>
        if s = "" then .ok none
        else match Name.ofString? s with
          | none => .error .failure
          | some k =>
            if isEntryName s = true then .ok (some (rule.action, k)) else .error .failure

def sourceAt (root : Path) (names : List Name) : Path :=
  ⟨root.anchor, names ++ root.names⟩

def decision (m : Manifest) (ctx : Context) (root : Path) (fs : FileSystem) (n : Name)
    (above : List Name) : Except Stop (Option (Action × Name)) :=
  let rel := Path.text ⟨.relative, n :: above⟩
  if pathLimit < (sourceAt root (n :: above)).byteLength then .error .failure
  else if m.lookup rel = none ∧ rel = Manifest.fileName then .ok none
  else naming fs ctx n (m.lookup rel)

def filled (fs : FileSystem) (ctx : Context) (bytes : ByteArray) : Except Stop ByteArray :=
  match FileAction.expandBytes fs ctx bytes with
  | .error _ => .error .failure
  | .ok text => .ok text.toUTF8

end Walk

section

variable (m : Manifest) (ctx : Context) (root : Path)

mutual

/-- What stands in the directory at `out` when the entry called `n` has been made there, behind
`acc`. The expansions see the file system in which all that has been made so far stands there. -/
def Tree.made (see : Forest → FileSystem) (above : List Name) (out : Path) (n : Name) (t : Tree)
    (acc : Forest) : Except Stop Forest := do
  match ← decision m ctx root (see acc) n above with
  | none => pure acc
  | some (action, name) =>
    let p : Pair := ⟨sourceAt root (n :: above), out.child name⟩
    let old := acc.find? name.1
    let copy := do
      let u ← t.copied p old
      pure (acc.put name u)
    match t with
    | .file bytes mode =>
      if action = .make then do
        p.check
        overLeaf old
        let content ← filled
          (see (acc.put name (.file ByteArray.empty FileSystem.newFileMode))) ctx bytes
        pure (acc.put name (.file content mode))
      else copy
    | .directory f =>
      if action = .copy then copy
      else do
        p.check
        let inside ← overDirectory old
        let g ← f.made (fun g => see (acc.put name (.directory g))) (n :: above) p.dest inside
        pure (acc.put name (.directory g))
    | .link _ | .pipe => copy

def Forest.made (see : Forest → FileSystem) (above : List Name) (out : Path) :
    Forest → Forest → Except Stop Forest
  | .nil, acc => pure acc
  | .cons n t rest, acc => do
    let acc ← t.made see above out n acc
    rest.made see above out acc

end

end

end Scaffold
