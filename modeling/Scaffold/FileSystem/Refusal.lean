namespace Scaffold

inductive Refusal
  | noEntry
  | occupied
  | notDirectory
  | isDirectory
  | notLink
  | nameTooLong
  | tooManyLinks
  | embeddedNul
  deriving DecidableEq, Repr

namespace Refusal

def number? : Refusal → Option Nat
  | .noEntry => some 2
  | .occupied => some 17
  | .notDirectory => some 20
  | .isDirectory => some 21
  | .notLink => some 22
  | .nameTooLong => some 36
  | .tooManyLinks => some 40
  | .embeddedNul => none

def text : Refusal → String
  | .noEntry => "No such file or directory"
  | .occupied => "File exists"
  | .notDirectory => "Not a directory"
  | .isDirectory => "Is a directory"
  | .notLink => "Invalid argument"
  | .nameTooLong => "File name too long"
  | .tooManyLinks => "Too many levels of symbolic links"
  | .embeddedNul => "embedded null byte"

def meansAbsent : Refusal → Bool
  | .noEntry | .notDirectory | .tooManyLinks | .embeddedNul => true
  | _ => false

end Refusal

end Scaffold
