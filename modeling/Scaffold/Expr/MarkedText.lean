import Scaffold.Expr.Reader

/-!
Text with markers. A marker is an expression between `${` and `}`; all other characters stand for
themselves, also a `$` before anything but `{`, and a `${` that ends the text.
-/

namespace Scaffold.Expr

inductive Segment
  | char (c : Char)
  | expr (e : Expr)
  | fault (f : SyntaxFault)
  deriving DecidableEq

inductive Scanner
  | text
  | dollar
  | brace
  | marker (r : Reader)
  deriving DecidableEq

namespace Scanner

def afterFeed : Progress → List Segment × Option Scanner
  | .more r => ([], some (.marker r))
  | .closed e => ([.expr e], some .text)
  | .failed f => ([.fault f], none)

def step : Scanner → Char → List Segment × Option Scanner
  | .text, c => if c = '$' then ([], some .dollar) else ([.char c], some .text)
  | .dollar, c =>
    if c = '{' then ([], some .brace)
    else if c = '$' then ([.char '$'], some .dollar)
    else ([.char '$', .char c], some .text)
  | .brace, c => afterFeed (Reader.start.feed .brace c)
  | .marker r, c => afterFeed (r.feed .brace c)

def finish : Scanner → List Segment
  | .text => []
  | .dollar => [.char '$']
  | .brace => [.char '$', .char '{']
  | .marker r =>
    match r.finish .brace with
    | .ok e => [.expr e]
    | .error f => [.fault f]

end Scanner

def segmentsFrom : Scanner → List Char → List Segment
  | s, [] => s.finish
  | s, c :: cs =>
    match s.step c with
    | (out, some next) => out ++ segmentsFrom next cs
    | (out, none) => out

def segments (cs : List Char) : List Segment :=
  segmentsFrom .text cs

end Scaffold.Expr
