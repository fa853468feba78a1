import Scaffold.FileSystem.Lookup

/-!
Paths without links and dots. A path is resolved name by name. Links are told apart by the paths
that lead to them, and names that lead nowhere are kept as they are written.
-/

namespace Scaffold

def Path.back (p : Path) : Path :=
  match p.names with
  | [] => if p.isAbsolute then p else ⟨p.anchor, [⟨"..", by decide⟩]⟩
  | n :: ns => if n.1 = ".." then ⟨p.anchor, n :: n :: ns⟩ else ⟨p.anchor, ns⟩

namespace FileSystem

abbrev Followed := List (Path × Option Path)

def written (rest : List String) : Path :=
  Path.ofString (String.intercalate "/" rest)

def resolveFrom (fs : FileSystem)
    (unravel : Followed → Path → List String → Except Path (Path × Followed))
    (followed : Followed) : Path → List String → Except Path (Path × Followed)
  | p, [] => .ok (p, followed)
  | p, piece :: rest =>
    match Name.ofString? piece with
    | none => resolveFrom fs unravel followed p rest
    | some n =>
      if n.1 = ".." then resolveFrom fs unravel followed p.back rest
      else match fs.entryAt (p.child n) with
        | .ok (.link target) =>
          match followed.lookup (p.child n) with
          | some (some real) => resolveFrom fs unravel followed real rest
          | some none => .error ((p.child n).join (written rest))
          | none =>
            let start := if target.toList.head? = some '/' then ⟨.root, []⟩ else p
            let pieces := (pieces '/' target.toList).map String.ofList
            match unravel ((p.child n, none) :: followed) start pieces with
            | .ok (real, followed) =>
              resolveFrom fs unravel ((p.child n, some real) :: followed) real rest
            | .error real => .error (real.join (written rest))
        | _ => resolveFrom fs unravel followed (p.child n) rest

def resolveTo (fs : FileSystem) :
    Nat → Followed → Path → List String → Except Path (Path × Followed)
  | 0 => fun _ p rest => .error (p.join (written rest))
  | depth + 1 => resolveFrom fs (resolveTo fs depth)

def withoutDots : List Name → List Name
  | [] => []
  | n :: ns => if n.1 = ".." then (withoutDots ns).tail else n :: withoutDots ns

def pathTo (loc : Location) : Path :=
  ⟨.root, loc.filterMap Name.ofString?⟩

def absolute (fs : FileSystem) (p : Path) : Path :=
  let q := (pathTo fs.workDir).join p
  ⟨q.anchor, withoutDots q.names⟩

/-- Where a path leads without any link. The links that are being followed differ, and no path to
one is longer than paths may be, so the depth suffices. -/
def canonical (fs : FileSystem) (p : Path) : Path :=
  let start := if p.isAbsolute then ⟨.root, []⟩ else Path.here
  match fs.resolveTo (fs.entries.size * pathLimit + 1) [] start p.steps with
  | .ok (real, _) => fs.absolute real
  | .error real => fs.absolute real

def loops (fs : FileSystem) (p : Path) : Bool :=
  match fs.find .target p with
  | .error .tooManyLinks => true
  | _ => false

end FileSystem

end Scaffold
