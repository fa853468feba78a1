/-!
Cutting a command line into words. Blanks separate words, except in quotes or behind a backslash.
-/

namespace Scaffold.Hook

inductive WordFault
  | openQuote
  | openEscape
  deriving DecidableEq, Repr

def WordFault.text : WordFault → String
  | .openQuote => "No closing quotation"
  | .openEscape => "No escaped character"

inductive Splitter
  | blank
  | word (text : List Char)
  | quoted (quote : Char) (text : List Char)
  | escaped (quote : Option Char) (text : List Char)
  deriving DecidableEq, Repr

def isSeparator (c : Char) : Bool :=
  c = ' ' || c = '\t' || c = '\r' || c = '\n'

namespace Splitter

def extend (text : List Char) (c : Char) : Splitter :=
  if c = '\\' then .escaped none text
  else if c = '\'' ∨ c = '"' then .quoted c text
  else .word (c :: text)

def step : Splitter → Char → Option (List Char) × Splitter
  | .blank, c => if isSeparator c then (none, .blank) else (none, extend [] c)
  | .word text, c => if isSeparator c then (some text.reverse, .blank) else (none, extend text c)
  | .quoted q text, c =>
    if c = q then (none, .word text)
    else if c = '\\' ∧ q = '"' then (none, .escaped (some q) text)
    else (none, .quoted q (c :: text))
  | .escaped none text, c => (none, .word (c :: text))
  | .escaped (some q) text, c =>
    if c = q ∨ c = '\\' then (none, .quoted q (c :: text))
    else (none, .quoted q (c :: '\\' :: text))

def finish : Splitter → Except WordFault (List (List Char))
  | .blank => .ok []
  | .word text => .ok [text.reverse]
  | .quoted .. => .error .openQuote
  | .escaped .. => .error .openEscape

def run : Splitter → List Char → Except WordFault (List (List Char))
  | s, [] => s.finish
  | s, c :: cs =>
    match s.step c with
    | (none, next) => run next cs
    | (some w, next) => (run next cs).map (w :: ·)

end Splitter

def words (line : String) : Except WordFault (List String) :=
  (Splitter.blank.run line.toList).map (·.map String.ofList)

end Scaffold.Hook
