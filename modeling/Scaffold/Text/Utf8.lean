import Scaffold.Text.Digits

namespace Scaffold.Text.Utf8

inductive Reason
  | badStart
  | badContinuation
  | truncated
  deriving DecidableEq, Repr

def Reason.text : Reason → String
  | .badStart => "invalid start byte"
  | .badContinuation => "invalid continuation byte"
  | .truncated => "unexpected end of data"

/-- The first sequence that is no character: why, at which position, its bytes, and whether the data
ends while more bytes are awaited for it. -/
structure Fault where
  reason : Reason
  position : Nat
  bytes : List UInt8
  atEnd : Bool
  deriving DecidableEq, Repr

def hexByte (b : UInt8) : String :=
  String.ofList (Digits.write 16 2 b.toNat)

def Fault.inStream (f : Fault) : Fault :=
  if f.atEnd then { f with position := 0 } else f

def Fault.message (f : Fault) : String :=
  let place := match f.bytes with
    | [b] => "byte 0x" ++ hexByte b ++ " in position " ++ toString f.position
    | bs =>
      "bytes in position " ++ toString f.position ++ "-" ++ toString (f.position + bs.length - 1)
  "'utf-8' codec can't decode " ++ place ++ ": " ++ f.reason.text

structure Owed where
  count : Nat
  low : UInt8
  high : UInt8
  deriving DecidableEq, Repr

def owedAfter (b : UInt8) : Option Owed :=
  if b < 0x80 then some ⟨0, 0x80, 0xBF⟩
  else if b < 0xC2 then none
  else if b < 0xE0 then some ⟨1, 0x80, 0xBF⟩
  else if b = 0xE0 then some ⟨2, 0xA0, 0xBF⟩
  else if b = 0xED then some ⟨2, 0x80, 0x9F⟩
  else if b < 0xF0 then some ⟨2, 0x80, 0xBF⟩
  else if b = 0xF0 then some ⟨3, 0x90, 0xBF⟩
  else if b < 0xF4 then some ⟨3, 0x80, 0xBF⟩
  else if b = 0xF4 then some ⟨3, 0x80, 0x8F⟩
  else none

def startsSurrogate (a b : UInt8) : Bool :=
  a = 0xED && 0xA0 ≤ b && b ≤ 0xBF

def firstFaultFrom (pos : Nat) (seen : List UInt8) (owed : Owed) : List UInt8 → Fault
  | [] => ⟨.truncated, pos - seen.length, seen.reverse, true⟩
  | b :: bs =>
    if owed.count = 0 then
      match owedAfter b with
      | none => ⟨.badStart, pos, [b], false⟩
      | some o => firstFaultFrom (pos + 1) (if o.count = 0 then [] else [b]) o bs
    else if owed.low ≤ b ∧ b ≤ owed.high then
      if owed.count = 1 then firstFaultFrom (pos + 1) [] ⟨0, 0x80, 0xBF⟩ bs
      else firstFaultFrom (pos + 1) (b :: seen) ⟨owed.count - 1, 0x80, 0xBF⟩ bs
    else ⟨.badContinuation, pos - seen.length, seen.reverse,
      seen.any (startsSurrogate · b) && bs.isEmpty⟩

def firstFault (bytes : List UInt8) : Fault :=
  firstFaultFrom 0 [] ⟨0, 0x80, 0xBF⟩ bytes

def decode (bytes : ByteArray) : Except Fault String :=
  match String.fromUTF8? bytes with
  | some s => .ok s
  | none => .error (firstFault bytes.toList)

inductive Piece
  | char (c : Char)
  | byte (b : UInt8)
  deriving DecidableEq, Repr

def piecesOf (bytes : ByteArray) : List Piece :=
  match String.fromUTF8? bytes with
  | some s => s.toList.map .char
  | none => bytes.toList.map fun b => if b < 0x80 then .char (Char.ofNat b.toNat) else .byte b

def Piece.char? : Piece → Option Char
  | .char c => some c
  | .byte _ => none

def Piece.bytes : Piece → List UInt8
  | .char c => (String.singleton c).toUTF8.toList
  | .byte b => [b]

def textOf (ps : List Piece) : Except Fault String :=
  if ps.all (·.char?.isSome) then .ok (String.ofList (ps.filterMap Piece.char?))
  else decode ⟨(ps.flatMap Piece.bytes).toArray⟩

theorem decode_toUTF8 (s : String) : decode s.toUTF8 = .ok s := by
  have h := s.isValidUTF8
  simp [decode, String.fromUTF8?, String.toUTF8, h, String.fromUTF8]

theorem piecesOf_toUTF8 (s : String) : piecesOf s.toUTF8 = s.toList.map .char := by
  have h := s.isValidUTF8
  simp [piecesOf, String.fromUTF8?, String.toUTF8, h, String.fromUTF8]

theorem filterMap_char? (cs : List Char) : (cs.map Piece.char).filterMap Piece.char? = cs := by
  simp [List.filterMap_map, Function.comp_def, Piece.char?]

theorem textOf_map_char (cs : List Char) : textOf (cs.map .char) = .ok (String.ofList cs) := by
  have h : (cs.map Piece.char).all (·.char?.isSome) = true := by simp [Piece.char?]
  rw [textOf, if_pos h, filterMap_char?]

end Scaffold.Text.Utf8
