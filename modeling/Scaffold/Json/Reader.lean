import Scaffold.Json.Draft

/-!
Reading JSON one character at a time, with the open arrays and objects held in a list. Where the
text stops being JSON the draft read so far is closed off with a broken one, so that a reader of the
draft meets what comes before the break first. Bytes that are no text may stand in strings only.
-/

namespace Scaffold.Json

open Text.Utf8 (Piece)

/-- What a reader of JSON allows beyond the standard, how deep arrays and objects may go, and how
many characters the whole part of a number may have, its sign among them. -/
structure Dialect where
  notFinite : Bool
  depth : Option Nat
  wholePart : Option Nat
  deriving DecidableEq, Repr

def Dialect.standard : Dialect := ⟨false, none, none⟩

inductive Open
  | array (items : List Draft)
  | object (members : List (Content × Draft)) (key : Option Content)

inductive Digits
  | sign
  | zero
  | whole
  | point
  | fraction
  | exponent
  | exponentSign
  | power
  deriving DecidableEq, Repr

inductive Mode
  | value
  | valueOrEnd
  | key
  | keyOrEnd
  | colon
  | behind
  | string (isKey : Bool) (text : List Piece)
  | escape (isKey : Bool) (text : List Piece)
  | code (isKey : Bool) (text : List Piece) (high : Option Nat) (digits : List Nat)
  | lowEscape (isKey : Bool) (text : List Piece) (high : Nat)
  | lowCode (isKey : Bool) (text : List Piece) (high : Nat)
  | word (left : List Char) (value : Draft)
  | number (digits : Digits) (text : List Char)
  | done (value : Draft)

structure Reader where
  containers : List Open
  mode : Mode

namespace Digits

def next (d : Digits) (c : Char) : Option Digits :=
  match d with
  | .sign => if c = '0' then some .zero else if c.isDigit then some .whole else none
  | .zero => if c = '.' then some .point else if c = 'e' ∨ c = 'E' then some .exponent else none
  | .whole =>
    if c.isDigit then some .whole
    else if c = '.' then some .point
    else if c = 'e' ∨ c = 'E' then some .exponent
    else none
  | .point => if c.isDigit then some .fraction else none
  | .fraction =>
    if c.isDigit then some .fraction else if c = 'e' ∨ c = 'E' then some .exponent else none
  | .exponent =>
    if c.isDigit then some .power else if c = '+' ∨ c = '-' then some .exponentSign else none
  | .exponentSign => if c.isDigit then some .power else none
  | .power => if c.isDigit then some .power else none

def mayEnd : Digits → Bool
  | .zero | .whole | .fraction | .power => true
  | _ => false

end Digits

namespace Number

def digitsValue (cs : List Char) : Nat :=
  cs.foldl (fun n c => 10 * n + (c.toNat - '0'.toNat)) 0

def signed (negative : Bool) (n : Nat) : Int :=
  if negative then -(n : Int) else n

def ofText (cs : List Char) : Number :=
  let negative := cs.head? = some '-'
  let cs := if negative then cs.tail else cs
  let whole := cs.takeWhile Char.isDigit
  match cs.dropWhile Char.isDigit with
  | [] => .int (signed negative (digitsValue whole))
  | rest =>
    let fraction := if rest.head? = some '.' then rest.tail.takeWhile Char.isDigit else []
    let rest := if rest.head? = some '.' then rest.tail.dropWhile Char.isDigit else rest
    let power := rest.tail
    let down := power.head? = some '-'
    let power := signed down (digitsValue (power.filter Char.isDigit))
    .decimal (signed negative (digitsValue (whole ++ fraction))) (power - fraction.length)

end Number

def isSpace (c : Char) : Bool :=
  c = ' ' || c = '\t' || c = '\n' || c = '\r'

def simpleEscape? : Char → Option Char
  | '"' => some '"'
  | '\\' => some '\\'
  | '/' => some '/'
  | 'b' => some '\x08'
  | 'f' => some '\x0c'
  | 'n' => some '\n'
  | 'r' => some '\r'
  | 't' => some '\t'
  | _ => none

namespace Reader

def start : Reader := ⟨[], .value⟩

def put (containers : List Open) (v : Draft) : Reader :=
  match containers with
  | [] => ⟨[], .done v⟩
  | .array items :: st => ⟨.array (v :: items) :: st, .behind⟩
  | .object members key :: st => ⟨.object ((key.getD (.ok ""), v) :: members) none :: st, .behind⟩

def closeOff : List Open → Draft → Draft
  | [], v => v
  | .array items :: st, v => closeOff st (.array (v :: items).reverse)
  | .object members key :: st, v =>
    closeOff st (.object ((key.getD (.ok ""), v) :: members).reverse)

def close : List Open → Option Reader
  | .array items :: st => some (put st (.array items.reverse))
  | .object members _ :: st => some (put st (.object members.reverse))
  | [] => none

def opened (dialect : Dialect) (containers : List Open) (o : Open) (mode : Mode) :
    Option Reader :=
  if dialect.depth.all (containers.length < ·) then some ⟨o :: containers, mode⟩ else none

def beginValue (dialect : Dialect) (containers : List Open) (c : Char) : Option Reader :=
  if c = '{' then opened dialect containers (.object [] none) .keyOrEnd
  else if c = '[' then opened dialect containers (.array []) .valueOrEnd
  else if c = '"' then some ⟨containers, .string false []⟩
  else if c = 't' then some ⟨containers, .word "rue".toList (.bool true)⟩
  else if c = 'f' then some ⟨containers, .word "alse".toList (.bool false)⟩
  else if c = 'n' then some ⟨containers, .word "ull".toList .null⟩
  else if c = 'N' ∧ dialect.notFinite then
    some ⟨containers, .word "aN".toList (.number .notFinite)⟩
  else if c = 'I' ∧ dialect.notFinite then
    some ⟨containers, .word "nfinity".toList (.number .notFinite)⟩
  else if c = '-' then some ⟨containers, .number .sign [c]⟩
  else if c = '0' then some ⟨containers, .number .zero [c]⟩
  else if c.isDigit then some ⟨containers, .number .whole [c]⟩
  else none

def endString (containers : List Open) (isKey : Bool) (text : List Piece) : Reader :=
  let s := Text.Utf8.textOf text.reverse
  if isKey then
    match containers with
    | .object members _ :: st => ⟨.object members (some s) :: st, .colon⟩
    | st => ⟨st, .colon⟩
  else put containers (.string s)

def stepBehind (containers : List Open) (c : Char) : Option Reader :=
  if isSpace c then some ⟨containers, .behind⟩
  else match containers with
    | .array _ :: _ =>
      if c = ',' then some ⟨containers, .value⟩
      else if c = ']' then close containers
      else none
    | .object .. :: _ =>
      if c = ',' then some ⟨containers, .key⟩
      else if c = '}' then close containers
      else none
    | [] => none

def stepAfter (r : Reader) (c : Char) : Option Reader :=
  match r.mode with
  | .behind => stepBehind r.containers c
  | .done v => if isSpace c then some ⟨r.containers, .done v⟩ else none
  | _ => none

def endCode (containers : List Open) (isKey : Bool) (text : List Piece) (high : Option Nat)
    (n : Nat) : Option Reader :=
  match high with
  | some h =>
    if 0xDC00 ≤ n ∧ n ≤ 0xDFFF then
      let c := Char.ofNat (0x10000 + (h - 0xD800) * 0x400 + (n - 0xDC00))
      some ⟨containers, .string isKey (.char c :: text)⟩
    else none
  | none =>
    if 0xD800 ≤ n ∧ n ≤ 0xDBFF then some ⟨containers, .lowEscape isKey text n⟩
    else if 0xDC00 ≤ n ∧ n ≤ 0xDFFF then none
    else some ⟨containers, .string isKey (.char (Char.ofNat n) :: text)⟩

def endNumber (r : Reader) (next : Option Char) : Reader :=
  match r.mode with
  | .number digits text =>
    if digits.mayEnd ∧ ¬(digits = .zero ∧ next.any Char.isDigit) then
      put r.containers (.number (.ofText text.reverse))
    else r
  | _ => r

def stepChar (dialect : Dialect) (r : Reader) (c : Char) : Option Reader :=
  match r.mode with
  | .value => if isSpace c then some r else beginValue dialect r.containers c
  | .valueOrEnd =>
    if isSpace c then some r
    else if c = ']' then close r.containers
    else beginValue dialect r.containers c
  | .key =>
    if isSpace c then some r
    else if c = '"' then some ⟨r.containers, .string true []⟩
    else none
  | .keyOrEnd =>
    if isSpace c then some r
    else if c = '}' then close r.containers
    else if c = '"' then some ⟨r.containers, .string true []⟩
    else none
  | .colon =>
    if isSpace c then some r else if c = ':' then some ⟨r.containers, .value⟩ else none
  | .behind => stepBehind r.containers c
  | .string isKey text =>
    if c = '"' then some (endString r.containers isKey text)
    else if c = '\\' then some ⟨r.containers, .escape isKey text⟩
    else if c.toNat < 0x20 then none
    else some ⟨r.containers, .string isKey (.char c :: text)⟩
  | .escape isKey text =>
    if c = 'u' then some ⟨r.containers, .code isKey text none []⟩
    else (simpleEscape? c).map fun e => ⟨r.containers, .string isKey (.char e :: text)⟩
  | .code isKey text high digits =>
    match Text.Digits.value? c with
    | none => none
    | some d =>
      if digits.length < 3 then some ⟨r.containers, .code isKey text high (d :: digits)⟩
      else endCode r.containers isKey text high ((d :: digits).foldr (fun d n => n * 16 + d) 0)
  | .lowEscape isKey text high =>
    if c = '\\' then some ⟨r.containers, .lowCode isKey text high⟩ else none
  | .lowCode isKey text high =>
    if c = 'u' then some ⟨r.containers, .code isKey text (some high) []⟩ else none
  | .word left v =>
    match left with
    | d :: ds =>
      if c = d then
        if ds.isEmpty then some (put r.containers v) else some ⟨r.containers, .word ds v⟩
      else none
    | [] => none
  | .number digits text =>
    match digits.next c with
    | some d =>
      if d = .whole ∧ !dialect.wholePart.all (text.length < ·) then none
      else some ⟨r.containers, .number d (c :: text)⟩
    | none =>
      if digits = .sign ∧ c = 'I' ∧ dialect.notFinite then
        some ⟨r.containers, .word "nfinity".toList (.number .notFinite)⟩
      else stepAfter (r.endNumber (some c)) c
  | .done v => if isSpace c then some ⟨r.containers, .done v⟩ else none

def stepByte (r : Reader) (b : UInt8) : Option Reader :=
  match r.mode with
  | .string isKey text => some ⟨r.containers, .string isKey (.byte b :: text)⟩
  | _ => none

def step (dialect : Dialect) (r : Reader) : Piece → Option Reader
  | .char c => r.stepChar dialect c
  | .byte b => r.stepByte b

end Reader

structure Document where
  draft : Draft
  complete : Bool

namespace Reader

def broken (r : Reader) (next : Option Piece) : Document :=
  let r := r.endNumber (next.bind Piece.char?)
  match r.mode with
  | .done v => ⟨v, next.isNone⟩
  | _ => ⟨closeOff r.containers .broken, false⟩

def run (dialect : Dialect) : Reader → List Piece → Document
  | r, [] => r.broken none
  | r, p :: ps =>
    match r.step dialect p with
    | some next => run dialect next ps
    | none => r.broken (some p)

end Reader

def read (dialect : Dialect) (ps : List Piece) : Document :=
  Reader.start.run dialect ps

def parse? (dialect : Dialect) (cs : List Char) : Option Value :=
  let doc := read dialect (cs.map .char)
  if doc.complete then doc.draft.value? else none

end Scaffold.Json
