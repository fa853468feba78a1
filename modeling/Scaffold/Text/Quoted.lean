import Scaffold.Text.Digits
import Scaffold.Text.Unprintable

namespace Scaffold.Text.Quoted

def quoteFor (cs : List Char) : Char :=
  if cs.contains '\'' && !cs.contains '"' then '"' else '\''

def escapeCode (n : Nat) : List Char :=
  if n < 0x100 then '\\' :: 'x' :: Digits.write 16 2 n
  else if n < 0x10000 then '\\' :: 'u' :: Digits.write 16 4 n
  else '\\' :: 'U' :: Digits.write 16 8 n

def escapeChar (quote c : Char) : List Char :=
  if c = quote ∨ c = '\\' then ['\\', c]
  else if c = '\n' then ['\\', 'n']
  else if c = '\r' then ['\\', 'r']
  else if c = '\t' then ['\\', 't']
  else if isPrintable c then [c]
  else escapeCode c.toNat

def encode (cs : List Char) : List Char :=
  let q := quoteFor cs
  q :: cs.flatMap (escapeChar q) ++ [q]

end Scaffold.Text.Quoted

namespace Scaffold.Text

def quoted (s : String) : String :=
  String.ofList (Quoted.encode s.toList)

end Scaffold.Text
