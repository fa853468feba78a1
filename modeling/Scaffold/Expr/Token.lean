import Scaffold.Text.Blank
import Scaffold.Text.Letter
import Scaffold.Text.Numeral

namespace Scaffold.Expr

inductive Token
  | closeBracket
  | question
  | colon
  | openParen
  | closeParen
  | equals
  | nullCheck
  | ident (name : String)
  | literal (text : String)
  | pound
  | comma
  | assign
  | minus
  deriving DecidableEq, Repr

def Token.text : Token → String
  | .closeBracket => "\x7d"
  | .question => "?"
  | .colon => ":"
  | .openParen => "("
  | .closeParen => ")"
  | .equals => "=="
  | .nullCheck => "??"
  | .ident name => name
  | .literal text => text
  | .pound => "#"
  | .comma => ","
  | .assign => "="
  | .minus => "-"

inductive LexFault
  | unexpected (c : Char)
  | unclosedLiteral
  | unfinishedEscape
  deriving DecidableEq, Repr

def LexFault.message : LexFault → String
  | .unexpected c => "unexpected character '" ++ c.toString ++ "'"
  | .unclosedLiteral => "expected `'` to close the literal"
  | .unfinishedEscape => "expected escape sequence"

def isNameStart (c : Char) : Bool :=
  Text.isLetter c || c = '_'

def isNameChar (c : Char) : Bool :=
  Text.isLetter c || Text.isNumeral c || c = '_'

def Token.ofChar? : Char → Option Token
  | '}' => some .closeBracket
  | ':' => some .colon
  | '(' => some .openParen
  | ')' => some .closeParen
  | '#' => some .pound
  | ',' => some .comma
  | '-' => some .minus
  | _ => none

def unescape : Char → Char
  | 'n' => '\n'
  | 'r' => '\r'
  | 't' => '\t'
  | c => c

/-- What the lexer has begun to read. Characters of a token are held latest first. -/
inductive Lexer
  | blank
  | question
  | assign
  | name (letters : List Char)
  | quoted (text : List Char)
  | escape (text : List Char)
  deriving DecidableEq, Repr

structure Lexer.Step where
  tokens : List Token
  next : Except LexFault Lexer

namespace Lexer

def start (c : Char) : Step :=
  if Text.isBlank c then ⟨[], .ok .blank⟩
  else match Token.ofChar? c with
    | some t => ⟨[t], .ok .blank⟩
    | none =>
      if c = '?' then ⟨[], .ok .question⟩
      else if c = '=' then ⟨[], .ok .assign⟩
      else if c = '\'' then ⟨[], .ok (.quoted [])⟩
      else if isNameStart c then ⟨[], .ok (.name [c])⟩
      else ⟨[], .error (.unexpected c)⟩

def endBefore (t : Token) (c : Char) : Step :=
  let s := start c
  ⟨t :: s.tokens, s.next⟩

def nameToken (letters : List Char) : Token :=
  .ident (String.ofList letters.reverse)

def step : Lexer → Char → Step
  | .blank, c => start c
  | .question, c => if c = '?' then ⟨[.nullCheck], .ok .blank⟩ else endBefore .question c
  | .assign, c => if c = '=' then ⟨[.equals], .ok .blank⟩ else endBefore .assign c
  | .name cs, c => if isNameChar c then ⟨[], .ok (.name (c :: cs))⟩ else endBefore (nameToken cs) c
  | .quoted cs, c =>
    if c = '\'' then ⟨[.literal (String.ofList cs.reverse)], .ok .blank⟩
    else if c = '\\' then ⟨[], .ok (.escape cs)⟩
    else ⟨[], .ok (.quoted (c :: cs))⟩
  | .escape cs, c => ⟨[], .ok (.quoted (unescape c :: cs))⟩

def finish : Lexer → Except LexFault (Option Token)
  | .blank => .ok none
  | .question => .ok (some .question)
  | .assign => .ok (some .assign)
  | .name cs => .ok (some (nameToken cs))
  | .quoted _ => .error .unclosedLiteral
  | .escape _ => .error .unfinishedEscape

end Lexer

/-- Tokens in their order, each with the text behind the last character read for it, then the
fault that ended the reading, if any, and the text behind that. -/
structure Lexed where
  tokens : List (Token × List Char)
  fault : Option LexFault
  rest : List Char
  deriving DecidableEq, Repr

def Lexed.push (ts : List Token) (rest : List Char) (l : Lexed) : Lexed :=
  { l with tokens := ts.map (·, rest) ++ l.tokens }

def lexFrom : Lexer → List Char → Lexed
  | l, [] =>
    match l.finish with
    | .ok t => ⟨t.toList.map (·, []), none, []⟩
    | .error f => ⟨[], some f, []⟩
  | l, c :: cs =>
    let s := l.step c
    match s.next with
    | .ok l => (lexFrom l cs).push s.tokens cs
    | .error f => ⟨s.tokens.map (·, cs), some f, cs⟩

def lex (cs : List Char) : Lexed :=
  lexFrom .blank cs

def Lexed.take (cs : List Char) (l : Lexed) : Nat → Lexed
  | 0 => ⟨[], none, cs⟩
  | n + 1 =>
    match l.tokens[n]? with
    | none => l
    | some t => ⟨l.tokens.take (n + 1), none, t.2⟩

def tokenize (cs : List Char) : Except LexFault (List Token) :=
  let l := lex cs
  match l.fault with
  | some f => .error f
  | none => .ok (l.tokens.map Prod.fst)

end Scaffold.Expr
