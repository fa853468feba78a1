import Scaffold.Expr.Basic
import Scaffold.Expr.Token

/-!
Reading expressions from tokens. The parser takes one token at a time and holds the
parentheses, conditions and calls that are still open.
-/

namespace Scaffold.Expr

inductive Expected
  | closeBracket
  | colon
  | closeParen
  | openParen
  | identifier
  | endOfExpression
  deriving DecidableEq, Repr

def Expected.text : Expected → String
  | .closeBracket => "'\x7d'"
  | .colon => "':'"
  | .closeParen => "')'"
  | .openParen => "'('"
  | .identifier => "identifier"
  | .endOfExpression => "end of expression"

inductive Waiting
  | failure (test success : Expr)
  | fallback (first : Expr)
  deriving DecidableEq

def Waiting.close : Expr → Waiting → Expr
  | e, .failure test success => .cond test success e
  | e, .fallback first => .orElse first e

/-- An expression that is being read: what its end will close, the left sides of its comparisons,
and its terms since then. The lists are innermost first. -/
structure Level where
  waiting : List Waiting
  lefts : List Expr
  terms : Expr
  deriving DecidableEq

namespace Level

def start (waiting : List Waiting) : Level := ⟨waiting, [], .absent⟩

def add (l : Level) (term : Expr) : Level :=
  { l with terms := l.terms.append term }

def compare (l : Level) : Level :=
  { l with lefts := l.terms :: l.lefts, terms := .absent }

def comparison (l : Level) : Expr :=
  l.lefts.foldl (fun e left => .equals left e) l.terms

def value (l : Level) : Expr :=
  l.waiting.foldl Waiting.close l.comparison

end Level

structure OpenCall where
  function : String
  file : Expr
  define : Defines
  undefine : List String
  deriving DecidableEq

namespace OpenCall

def set (c : OpenCall) (name : String) (value : Expr) : OpenCall :=
  { c with define := c.define.set name value }

def unset (c : OpenCall) (name : String) : OpenCall :=
  { c with undefine := c.undefine ++ [name] }

def close (c : OpenCall) : Expr :=
  .call c.function c.file c.define c.undefine

end OpenCall

inductive Holder
  | group (outer : Level)
  | success (waiting : List Waiting) (test : Expr)
  | file (outer : Level) (function : String)
  | value (outer : Level) (opened : OpenCall) (name : String)
  deriving DecidableEq

inductive Focus
  | terms (level : Level)
  | function (outer : Level)
  | parenthesis (outer : Level) (function : String)
  | argument (outer : Level) (opened : OpenCall)
  | undefined (outer : Level) (opened : OpenCall)
  | named (outer : Level) (opened : OpenCall) (name : String)
  | argumentEnd (outer : Level) (opened : OpenCall)
  deriving DecidableEq

structure Parser where
  focus : Focus
  holders : List Holder
  deriving DecidableEq

inductive Ending
  | brace
  | text
  deriving DecidableEq, Repr

namespace Parser

def start : Parser := ⟨.terms (.start []), []⟩

def acceptInArguments (outer : Level) (opened : OpenCall) (holders : List Holder) :
    Token → Option Parser
  | .comma => some ⟨.argument outer opened, holders⟩
  | .closeParen => some ⟨.terms (outer.add opened.close), holders⟩
  | _ => none

def acceptAtEnd (level : Level) (holders : List Holder) (t : Token) : Option Parser :=
  match holders with
  | [] => none
  | .group outer :: hs =>
    if t = .closeParen then some ⟨.terms (outer.add level.value), hs⟩ else none
  | .success waiting test :: hs =>
    if t = .colon then some ⟨.terms (.start (.failure test level.value :: waiting)), hs⟩ else none
  | .file outer function :: hs => acceptInArguments outer ⟨function, level.value, .nil, []⟩ hs t
  | .value outer opened name :: hs => acceptInArguments outer (opened.set name level.value) hs t

def accept (p : Parser) (t : Token) : Option Parser :=
  match p.focus with
  | .terms level =>
    match t with
    | .openParen => some ⟨.terms (.start []), .group level :: p.holders⟩
    | .ident name => some { p with focus := .terms (level.add (.var name)) }
    | .literal text => some { p with focus := .terms (level.add (.lit text)) }
    | .pound => some { p with focus := .function level }
    | .equals => some { p with focus := .terms level.compare }
    | .question => some ⟨.terms (.start []), .success level.waiting level.comparison :: p.holders⟩
    | .nullCheck =>
      some { p with focus := .terms (.start (.fallback level.comparison :: level.waiting)) }
    | t => acceptAtEnd level p.holders t
  | .function outer =>
    match t with
    | .ident name => some { p with focus := .parenthesis outer name }
    | _ => none
  | .parenthesis outer function =>
    if t = .openParen then some ⟨.terms (.start []), .file outer function :: p.holders⟩ else none
  | .argument outer opened =>
    match t with
    | .minus => some { p with focus := .undefined outer opened }
    | .ident name => some { p with focus := .named outer opened name }
    | _ => none
  | .undefined outer opened =>
    match t with
    | .ident name => some { p with focus := .argumentEnd outer (opened.unset name) }
    | _ => none
  | .named outer opened name =>
    if t = .assign then some ⟨.terms (.start []), .value outer opened name :: p.holders⟩
    else acceptInArguments outer (opened.set name .absent) p.holders t
  | .argumentEnd outer opened => acceptInArguments outer opened p.holders t

def result? (p : Parser) : Option Expr :=
  match p.focus, p.holders with
  | .terms level, [] => some level.value
  | _, _ => none

def Holder.expected : Holder → Expected
  | .success .. => .colon
  | _ => .closeParen

def expected (ending : Ending) (p : Parser) : Expected :=
  match p.focus, p.holders with
  | .terms _, [] =>
    match ending with
    | .brace => .closeBracket
    | .text => .endOfExpression
  | .terms _, h :: _ => Holder.expected h
  | .function _, _ => .identifier
  | .parenthesis .., _ => .openParen
  | .argument .., _ => .identifier
  | .undefined .., _ => .identifier
  | .named .., _ => .closeParen
  | .argumentEnd .., _ => .closeParen

inductive Step
  | more (p : Parser)
  | closed (e : Expr)
  | refused (expected : Expected)

def step (ending : Ending) (p : Parser) (t : Token) : Step :=
  match p.accept t with
  | some q => .more q
  | none =>
    match ending, t, p.result? with
    | .brace, .closeBracket, some e => .closed e
    | _, _, _ => .refused (p.expected ending)

def finish (ending : Ending) (p : Parser) : Except Expected Expr :=
  match ending, p.result? with
  | .text, some e => .ok e
  | _, _ => .error (p.expected ending)

def run (ending : Ending) : Parser → List Token → Except Expected Expr × List Token
  | p, [] => (p.finish ending, [])
  | p, t :: ts =>
    match p.step ending t with
    | .more q => run ending q ts
    | .closed e => (.ok e, ts)
    | .refused x => (.error x, ts)

end Parser

def parseTokens (ending : Ending) (ts : List Token) : Except Expected Expr :=
  (Parser.start.run ending ts).1

end Scaffold.Expr
