/-!
Paths as they are written: names between slashes, below an anchor. A path is never looked up here.
-/

namespace Scaffold

/-- Where a path begins. Two slashes in front, and no more, are not the same as one. -/
inductive Anchor
  | relative
  | root
  | doubleRoot
  deriving DecidableEq, Repr

def isName (s : String) : Bool :=
  s ≠ "" && s ≠ "." && !s.toList.contains '/'

abbrev Name := { s : String // isName s = true }

def Name.ofString? (s : String) : Option Name :=
  if h : isName s = true then some ⟨s, h⟩ else none

/-- The names are held last first, so that the parent of a path is its tail. -/
structure Path where
  anchor : Anchor
  names : List Name
  deriving DecidableEq

def pieces (sep : Char) : List Char → List (List Char)
  | [] => [[]]
  | c :: cs =>
    match pieces sep cs with
    | [] => [[c]]
    | p :: ps => if c = sep then [] :: p :: ps else (c :: p) :: ps

namespace Path

def here : Path := ⟨.relative, []⟩

def isAbsolute (p : Path) : Bool :=
  p.anchor ≠ .relative

def anchorOf : List Char → Anchor
  | ['/', '/'] => .doubleRoot
  | '/' :: '/' :: c :: _ => if c = '/' then .root else .doubleRoot
  | '/' :: _ => .root
  | _ => .relative

def ofString (s : String) : Path where
  anchor := anchorOf s.toList
  names := ((pieces '/' s.toList).map String.ofList |>.filterMap Name.ofString?).reverse

def anchorText : Anchor → String
  | .relative => ""
  | .root => "/"
  | .doubleRoot => "//"

def steps (p : Path) : List String :=
  (p.names.map Subtype.val).reverse

def text (p : Path) : String :=
  if p = here then "." else anchorText p.anchor ++ String.intercalate "/" p.steps

def join (p q : Path) : Path :=
  if q.isAbsolute then q else ⟨p.anchor, q.names ++ p.names⟩

def child (p : Path) (n : Name) : Path :=
  ⟨p.anchor, n :: p.names⟩

def name (p : Path) : String :=
  match p.names with
  | [] => ""
  | n :: _ => n.1

def parent (p : Path) : Path :=
  ⟨p.anchor, p.names.tail⟩

def withName (p : Path) (n : Name) : Path :=
  p.parent.child n

def relativeTo? (p base : Path) : Option Path :=
  if base.anchor = p.anchor ∧ base.names <:+ p.names then
    some ⟨.relative, p.names.take (p.names.length - base.names.length)⟩
  else none

def byteLength (p : Path) : Nat :=
  p.text.utf8ByteSize

def hasNul (p : Path) : Bool :=
  p.names.any fun n => n.1.toList.contains '\x00'

theorem pieces_of_not_mem (sep : Char) (cs : List Char) (h : sep ∉ cs) : pieces sep cs = [cs] := by
  induction cs with
  | nil => rfl
  | cons c cs ih =>
    simp only [List.mem_cons, not_or] at h
    simp [pieces, ih h.2, Ne.symm h.1]

theorem isName_iff (n : String) : isName n = true ↔ n ≠ "" ∧ n ≠ "." ∧ '/' ∉ n.toList := by
  simp [isName, and_assoc]

theorem anchorOf_of_head_ne (cs : List Char) (h : cs.head? ≠ some '/') :
    anchorOf cs = .relative := by
  match cs with
  | [] => rfl
  | c :: cs =>
    have hc : c ≠ '/' := by simpa using h
    unfold anchorOf
    split <;> simp_all

theorem parent_child (p : Path) (n : Name) : (p.child n).parent = p := rfl

end Path

end Scaffold
