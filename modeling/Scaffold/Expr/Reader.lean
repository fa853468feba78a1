import Scaffold.Expr.Parser

/-!
Reading an expression from characters: each character goes to the lexer, and the tokens that it ends
go to the parser, so that nothing behind the end of the expression, or behind a fault, is looked at.
-/

namespace Scaffold.Expr

inductive SyntaxFault
  | lex (fault : LexFault)
  | parse (expected : Expected)
  deriving DecidableEq, Repr

def SyntaxFault.message : SyntaxFault → String
  | .lex f => f.message
  | .parse x => "expected " ++ x.text

structure Reader where
  lexer : Lexer
  parser : Parser
  deriving DecidableEq

inductive Progress
  | more (r : Reader)
  | closed (e : Expr)
  | failed (f : SyntaxFault)

namespace Reader

def start : Reader := ⟨.blank, .start⟩

def takeTokens (ending : Ending) : Parser → List Token → Parser.Step
  | p, [] => .more p
  | p, t :: ts =>
    match p.step ending t with
    | .more q => takeTokens ending q ts
    | s => s

def feed (ending : Ending) (r : Reader) (c : Char) : Progress :=
  let s := r.lexer.step c
  match takeTokens ending r.parser s.tokens with
  | .closed e => .closed e
  | .refused x => .failed (.parse x)
  | .more p =>
    match s.next with
    | .ok l => .more ⟨l, p⟩
    | .error f => .failed (.lex f)

def finish (ending : Ending) (r : Reader) : Except SyntaxFault Expr :=
  match r.lexer.finish with
  | .error f => .error (.lex f)
  | .ok t =>
    match takeTokens ending r.parser t.toList with
    | .closed e => .ok e
    | .refused x => .error (.parse x)
    | .more p => (p.finish ending).mapError .parse

def run (ending : Ending) : Reader → List Char → Except SyntaxFault Expr × List Char
  | r, [] => (r.finish ending, [])
  | r, c :: cs =>
    match r.feed ending c with
    | .more q => run ending q cs
    | .closed e => (.ok e, cs)
    | .failed f => (.error f, cs)

end Reader

def parse (ending : Ending) (cs : List Char) : Except SyntaxFault Expr × List Char :=
  Reader.start.run ending cs

def ofText (s : String) : Except SyntaxFault Expr :=
  (parse .text s.toList).1

end Scaffold.Expr
